import SafetyIsolation.Harness.Scenarios
import SafetyIsolation.Interleaving.Alone
import SafetyIsolation.Kernel.ProcRead
import SafetyIsolation.Kernel.ProcWrite

/-! The harness on top of the kernel. Its thread runs in user space until it opens one of the
files in `/proc`; inside the kernel each of its steps is one step among those of the others.
-/

namespace SafetyIsolation.Harness

open SafetyIsolation.Interleaving SafetyIsolation.Kernel SafetyIsolation.Text

/-- The setting a text asks `safety_mem_proc_write` for. -/
def requestedProtection (text : Bytes) : Option Bool :=
  if text.length ≥ demoCommandBufferSize then none
  else if strim text = demoEnableCommand ∨ strim text = demoProtectCommand then some true
  else if strim text = demoDisableCommand ∨ strim text = demoUnprotectCommand then some false
  else none

/-- The attack a text asks `bad_driver_proc_write` for. -/
def requestedAttack (text : Bytes) : Option AttackMode :=
  if text.length ≥ demoCommandBufferSize then none
  else
    match kstrtouint (strim text) with
    | .error _ => none
    | .ok mode => AttackMode.ofCode mode

/-- The call that writing a text to a control file makes. -/
def requestedCall (path : Path) (text : Bytes) : Option Call :=
  if path = Demo.safetyMemStatus then (requestedProtection text).map .setProtection
  else if path = Demo.badDriver then (requestedAttack text).map .attack
  else none

/-- A buffer with a text. -/
def bufferOf (text : Bytes) : UserMemory := fun index => text[index]?

theorem copyFromUser_bufferOf (text : Bytes)
    : copyFromUser (bufferOf text) text.length = some text := by
  unfold copyFromUser bufferOf
  induction text with
  | nil => rfl
  | cons byte rest ih =>
      rw [List.length_cons, List.range_succ_eq_map, List.mapM_cons, List.mapM_map]
      simp only [List.getElem?_cons_zero, List.getElem?_cons_succ, Nat.succ_eq_add_one, ih,
        Function.comp_def]
      rfl

/-- The handlers do what the requested call does. -/
theorem safetyMemProcWrite_requested (page : SafetyPage) (text : Bytes)
    : (∃ code, requestedProtection text = none
        ∧ safetyMemProcWrite page (bufferOf text) text.length = .ret code)
      ∨ ∃ enable, requestedProtection text = some enable
        ∧ safetyMemProcWrite page (bufferOf text) text.length
          = ((Call.setProtection enable).body page).bind (fun _ => .ret (text.length : Int)) := by
  unfold safetyMemProcWrite requestedProtection
  rw [copyFromUser_bufferOf]
  split
  · exact .inl ⟨_, rfl, rfl⟩
  · dsimp only
    split
    · exact .inr ⟨true, rfl, rfl⟩
    · split
      · exact .inr ⟨false, rfl, rfl⟩
      · exact .inl ⟨_, rfl, rfl⟩

theorem badDriverProcWrite_requested (page : SafetyPage) (text : Bytes)
    : (∃ code, requestedAttack text = none
        ∧ badDriverProcWrite page (bufferOf text) text.length = .ret code)
      ∨ ∃ mode, requestedAttack text = some mode
        ∧ badDriverProcWrite page (bufferOf text) text.length
          = ((Call.attack mode).body page).bind (fun _ => .ret (text.length : Int)) := by
  unfold badDriverProcWrite requestedAttack
  rw [copyFromUser_bufferOf]
  split
  · exact .inl ⟨_, rfl, rfl⟩
  · dsimp only
    cases kstrtouint (strim text) with
    | error code => exact .inl ⟨_, rfl, rfl⟩
    | ok mode =>
        dsimp only
        cases AttackMode.ofCode mode with
        | none => exact .inl ⟨_, rfl, rfl⟩
        | some mode => exact .inr ⟨mode, rfl, rfl⟩

-----------------------------------------------------------------------------------------
-- Sessions
-----------------------------------------------------------------------------------------

/-- Where the thread of the harness is: in user space, in the kernel to write to a control file,
or in it to read the safety status.
-/
inductive Place where
  | user
  | writing
  | reading (reader : Reader StatusReport)

structure Session (α : Type) where
  kernel : KernelConfig
  sys : Sys
  code : Prog SysOp SysOp.Res α
  place : Place

/-- `rogueShown` is a read of the status of the rogue thread; the values before its last one are
from some earlier moment.
-/
inductive SessionEvent where
  | kernel (event : Interleaving.Event Nat Call Kernel.Choice)
  | system (choice : Choice)
  | openWrite (opened : Bool)
  | written
  | openStatus
  | read (around : Surroundings)
  | shown
  | rogueShown (attackMode : UInt32) (unsynchronizedWrites : Int32)

/-- A call by the thread of the harness, which it makes on its own account. -/
def isCallOf (self : Nat) : Interleaving.Event Nat Call Kernel.Choice → Bool
  | .call tid _ => tid = self
  | _ => false

/-- Operations that are answered without the modules' variables: any but a write to a control
file and a successful read of a status.
-/
def elsewhere (choice : Choice) : SysOp → Bool
  | .writeProc path _ => path ≠ Demo.safetyMemStatus && path ≠ Demo.badDriver
  | .readProc _ path =>
      match choice.read with
      | .content _ => path ≠ Demo.safetyMemStatus && path ≠ Demo.kRogueStatusPath
      | _ => true
  | _ => true

/-- `rogue_thread_init`, if that module has just been inserted. -/
def afterSystem (k : State) : (op : SysOp) → op.Res → State
  | .insmod path _, code =>
      if code = 0 ∧ path.stem = "rogue_thread" then
        { k with unsynchronizedWriteCounter := 0, metadataAttackCounter := 0 }
      else k
  | _, _ => k

namespace Session

variable {α : Type}

def start (k : State) (sys : Sys) (code : Prog SysOp SysOp.Res α) : Session α :=
  ⟨Config.start k, sys, code, .user⟩

section Step

variable (page : SafetyPage) (raw : Entry → UInt64) (needs : String → List String)
  (p : KernelPolicy) (self : Nat)

def step (s : Session α) : SessionEvent → Option (Session α)
  | .kernel event =>
      if isCallOf self event then none
      else ((machine page).step p s.kernel event).map (fun kernel => { s with kernel })
  | .system choice =>
      match s.place, s.code with
      | .user, .act op next =>
          if elsewhere choice op then
            match exec needs choice op s.sys with
            | .done result sys =>
                let k := afterSystem s.kernel.world.state op result
                some ⟨⟨⟨k, s.kernel.world.history⟩, s.kernel.threads⟩, sys, next result, .user⟩
            | _ => none
          else none
      | _, _ => none
  | .openWrite opened =>
      match s.place, s.code with
      | .user, .act (.writeProc path text) next =>
          match if opened then requestedCall path text else none with
          | some call =>
              ((machine page).step p s.kernel (.call self call)).map
                (fun kernel => { s with kernel, place := .writing })
          | none => some { s with code := next () }
      | _, _ => none
  | .written =>
      match s.place, s.code with
      | .writing, .act (.writeProc _ _) next =>
          if (s.kernel.threads self).isIdle then
            some { s with place := .user, code := next () }
          else none
      | _, _ => none
  | .openStatus =>
      match s.place, s.code with
      | .user, .act (.readProc _ path) _ =>
          if path = Demo.safetyMemStatus then
            some { s with place := .reading (collectStatus page raw) }
          else none
      | _, _ => none
  | .read around =>
      match s.place with
      | .reading (.act operation next) =>
          let seen := observe page around s.kernel.world.state operation
          some { s with place := .reading (next seen) }
      | _ => none
  | .shown =>
      match s.place, s.code with
      | .reading (.ret report), .act (.readProc _ path) next =>
          if path = Demo.safetyMemStatus then
            let text := safetyMemProcShow report
            some { s with place := .user, code := next (.content text) }
          else none
      | _, _ => none
  | .rogueShown attackMode unsynchronizedWrites =>
      match s.place, s.code with
      | .user, .act (.readProc _ path) next =>
          if path = Demo.kRogueStatusPath then
            let attacks := s.kernel.world.state.metadataAttackCounter
            let text := rogueStatusShow attackMode unsynchronizedWrites attacks
            some { s with code := next (.content text) }
          else none
      | _, _ => none

end Step

/-- What one event of a session can do, one case for each kind. -/
inductive Taken (page : SafetyPage) (raw : Entry → UInt64) (needs : String → List String)
    (p : KernelPolicy) (self : Nat) (s : Session α) : SessionEvent → Session α → Prop where
  | kernel {event : Interleaving.Event Nat Call Kernel.Choice} {kernel : KernelConfig}
      (others : isCallOf self event = false)
      (stepped : (machine page).step p s.kernel event = some kernel)
      : Taken page raw needs p self s (.kernel event) { s with kernel }
  | system {choice : Choice} {op : SysOp} {next : op.Res → Prog SysOp SysOp.Res α}
      {result : op.Res} {sys : Sys} (isUser : s.place = .user) (isCode : s.code = .act op next)
      (answered : elsewhere choice op = true)
      (done : exec needs choice op s.sys = .done result sys)
      : Taken page raw needs p self s (.system choice)
          ⟨⟨⟨afterSystem s.kernel.world.state op result, s.kernel.world.history⟩,
            s.kernel.threads⟩, sys, next result, .user⟩
  | refused {opened : Bool} {path : Path} {text : Bytes}
      {next : Unit → Prog SysOp SysOp.Res α} (isUser : s.place = .user)
      (isCode : s.code = .act (.writeProc path text) next)
      (nothing : opened = false ∨ requestedCall path text = none)
      : Taken page raw needs p self s (.openWrite opened) { s with code := next () }
  | entered {path : Path} {text : Bytes} {next : Unit → Prog SysOp SysOp.Res α} {call : Call}
      {kernel : KernelConfig} (isUser : s.place = .user)
      (isCode : s.code = .act (.writeProc path text) next)
      (requested : requestedCall path text = some call)
      (stepped : (machine page).step p s.kernel (.call self call) = some kernel)
      : Taken page raw needs p self s (.openWrite true) { s with kernel, place := .writing }
  | written {path : Path} {text : Bytes} {next : Unit → Prog SysOp SysOp.Res α}
      (isWriting : s.place = .writing) (isCode : s.code = .act (.writeProc path text) next)
      (idle : s.kernel.threads self = .idle)
      : Taken page raw needs p self s .written { s with place := .user, code := next () }
  | openStatus {point : ReadPoint} {next : ReadOutcome → Prog SysOp SysOp.Res α}
      (isUser : s.place = .user)
      (isCode : s.code = .act (.readProc point Demo.safetyMemStatus) next)
      : Taken page raw needs p self s .openStatus
          { s with place := .reading (collectStatus page raw) }
  | read {around : Surroundings} {operation : ReadOp}
      {next : operation.Res → Reader StatusReport}
      (isReading : s.place = .reading (.act operation next))
      : Taken page raw needs p self s (.read around)
          { s with place := .reading (next (observe page around s.kernel.world.state operation)) }
  | shown {point : ReadPoint} {next : ReadOutcome → Prog SysOp SysOp.Res α}
      {report : StatusReport} (isReading : s.place = .reading (.ret report))
      (isCode : s.code = .act (.readProc point Demo.safetyMemStatus) next)
      : Taken page raw needs p self s .shown
          { s with place := .user, code := next (.content (safetyMemProcShow report)) }
  | rogueShown {attackMode : UInt32} {unsynchronizedWrites : Int32} {point : ReadPoint}
      {next : ReadOutcome → Prog SysOp SysOp.Res α} (isUser : s.place = .user)
      (isCode : s.code = .act (.readProc point Demo.kRogueStatusPath) next)
      : Taken page raw needs p self s (.rogueShown attackMode unsynchronizedWrites)
          { s with
            code := next (.content (rogueStatusShow attackMode unsynchronizedWrites
              s.kernel.world.state.metadataAttackCounter)) }

variable {page : SafetyPage} {raw : Entry → UInt64} {needs : String → List String}
  {p : KernelPolicy} {self : Nat} {s s' : Session α} {event : SessionEvent}

theorem step_taken (h : s.step page raw needs p self event = some s')
    : Taken page raw needs p self s event s' := by
  cases event with
  | kernel event =>
      simp only [step] at h
      split at h
      · cases h
      · rename_i others
        obtain ⟨kernel, stepped, rfl⟩ := Option.map_eq_some_iff.mp h
        exact .kernel (Bool.eq_false_iff.mpr others) stepped
  | system choice =>
      simp only [step] at h
      split at h
      · rename_i op next isUser isCode
        split at h
        · rename_i answered
          split at h
          · rename_i result sys done
            exact Option.some.inj h ▸ .system isUser isCode answered done
          · cases h
        · cases h
      · cases h
  | openWrite opened =>
      simp only [step] at h
      split at h
      · rename_i path text next isUser isCode
        split at h
        · rename_i call requested
          obtain ⟨kernel, stepped, rfl⟩ := Option.map_eq_some_iff.mp h
          cases opened with
          | false => cases requested
          | true => exact .entered isUser isCode requested stepped
        · rename_i nothing
          refine Option.some.inj h ▸ .refused isUser isCode ?_
          cases opened with
          | false => exact .inl rfl
          | true => exact .inr nothing
      · cases h
  | written =>
      simp only [step] at h
      split at h
      · rename_i path text next isWriting isCode
        split at h
        · rename_i idle
          exact Option.some.inj h ▸ .written isWriting isCode (Thread.eq_idle idle)
        · cases h
      · cases h
  | openStatus =>
      simp only [step] at h
      split at h
      · rename_i point path next isUser isCode
        split at h
        · rename_i isStatus
          subst isStatus
          exact Option.some.inj h ▸ .openStatus isUser isCode
        · cases h
      · cases h
  | read around =>
      simp only [step] at h
      split at h
      · rename_i operation next isReading
        exact Option.some.inj h ▸ .read isReading
      · cases h
  | shown =>
      simp only [step] at h
      split at h
      · rename_i report point path next isReading isCode
        split at h
        · rename_i isStatus
          subst isStatus
          exact Option.some.inj h ▸ .shown isReading isCode
        · cases h
      · cases h
  | rogueShown attackMode unsynchronizedWrites =>
      simp only [step] at h
      split at h
      · rename_i point path next isUser isCode
        split at h
        · rename_i isRogue
          subst isRogue
          exact Option.some.inj h ▸ .rogueShown isUser isCode
        · cases h
      · cases h

/-- Threads nobody calls stay idle. -/
theorem step_others_idle {threads : List Nat} (ours : self ∈ threads)
    (known : ∀ kernel, event = .kernel kernel → kernel.tid ∈ threads)
    (others : ∀ tid ∉ threads, s.kernel.threads tid = .idle)
    (h : s.step page raw needs p self event = some s')
    : ∀ tid ∉ threads, s'.kernel.threads tid = .idle := by
  intro tid outside
  cases step_taken h with
  | kernel _ moved =>
      rw [← others tid outside]
      exact Machine.step_untouched moved (fun same => outside (same ▸ known _ rfl))
  | entered _ _ _ entered =>
      rw [← others tid outside]
      exact Machine.step_untouched entered (fun same => outside (same ▸ ours))
  | system _ _ _ _ => exact others tid outside
  | refused _ _ _ => exact others tid outside
  | written _ _ _ => exact others tid outside
  | openStatus _ _ => exact others tid outside
  | read _ => exact others tid outside
  | shown _ _ => exact others tid outside
  | rogueShown _ _ => exact others tid outside

end Session

section Loading

open Interleaving.Prog

variable {κ σ : Type} {exec : κ → (op : SysOp) → σ → Outcome op.Res σ} {admits : κ → Prop}
  {inv : σ → Prop}

/-- Loading keeps what its two operations keep, whatever is loaded already. -/
theorem load_keeps (files : ∀ path, Keeps exec admits (fun _ s => inv s) (sys (.fileExists path)))
    (inserts : ∀ path params,
      Keeps exec admits (fun _ s => inv s) (sys (.insmod path params)))
    (id : LoaderId) (path : Path) (params : String)
    : Keeps exec admits (fun _ s => inv s) (ModuleLoader.load id path params) := by
  have resolved : Keeps exec admits (fun _ s => inv s) (ModuleLoader.resolve path) := by
    refine .bind (files _) (fun found => ?_)
    split
    · exact .pure _
    · refine .bind (files _) (fun found => ?_)
      split
      · exact .pure _
      · refine .bind (files _) (fun found => ?_)
        split
        · exact .pure _
        · exact .pure _
  refine .bind resolved (fun target => ?_)
  cases target with
  | none => exact .pure _
  | some target =>
      refine .bind (fun _ _ h => h) (fun modules => ?_)
      split
      · exact .pure _
      · refine .bind (inserts _ _) (fun code => ?_)
        split
        · exact .pure _
        · exact fun _ _ h => h

theorem loadEach_keeps
    (files : ∀ path, Keeps exec admits (fun _ s => inv s) (sys (.fileExists path)))
    (inserts : ∀ path params,
      Keeps exec admits (fun _ s => inv s) (sys (.insmod path params)))
    (id : LoaderId) (paths : List Path)
    : Keeps exec admits (fun _ s => inv s) (loadEach id paths) := by
  induction paths with
  | nil => exact .pure _
  | cons path rest ih =>
      refine .bind (load_keeps files inserts id path "") (fun loaded => ?_)
      cases loaded with
      | error message => exact .pure _
      | ok done => exact ih

end Loading

end SafetyIsolation.Harness
