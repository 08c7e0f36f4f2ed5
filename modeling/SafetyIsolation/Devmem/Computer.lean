import SafetyIsolation.Devmem.MemoryRegion
import SafetyIsolation.Interleaving.Alone
import SafetyIsolation.Memory.Words

/-! The computer that `devmem` runs on: its physical memory, which others write too, and what the
process has open and mapped. Using something that is not open or not mapped is a fault.
-/

namespace SafetyIsolation.Devmem

open SafetyIsolation.Interleaving SafetyIsolation.Interleaving.Prog
open SafetyIsolation.Memory SafetyIsolation.Text

deriving instance DecidableEq for Mapping

/-- A live mapping, with the length and the protection that it was asked for. -/
structure Held where
  mapping : Mapping
  length : UInt64
  mode : MemoryAccessMode
  deriving DecidableEq

/-- What the process has done, as far as it concerns the memory: the system refuses to open or to
map, or it grants a mapping, words are loaded and stored, and there are pauses.
-/
inductive Deed where
  | refused (errno : Bytes)
  | granted (held : Held)
  | loaded (address : Nat) (value : UInt32)
  | stored (address : Nat) (value : UInt32)
  | slept (interval : Nat)
  deriving DecidableEq

/-- `unaligned` says that a word may be accessed at any address. The last fields record what the
process has printed and done.
-/
structure Computer where
  memory : Contents
  unaligned : Bool
  descriptors : List (Nat × MemoryAccessMode) := []
  mappings : List Held := []
  errno : Bytes := []
  handlers : List Int := []
  stopRequested : Bool := false
  output : Bytes := []
  errors : Bytes := []
  deeds : List Deed := []

def Deed.store? : Deed → Option (Nat × UInt32)
  | .stored address value => some (address, value)
  | _ => none

/-- The words that were stored, and where. -/
def Computer.stores (s : Computer) : List (Nat × UInt32) := s.deeds.filterMap Deed.store?

/-- What a call may answer, and what happens before it: others write to the memory, and a signal
arrives. A mapping is at least as long as asked for, by `mapped` bytes.
-/
structure Answer where
  sysconf : Int64 := 4096
  opened : Except Bytes Nat := .ok 3
  mapped : Except Bytes Nat := .ok 0
  closed : Except Bytes Unit := .ok ()
  others : Contents → Contents := id
  signal : Option Int := none

instance : Inhabited Answer := ⟨{}⟩

inductive ToolOp where
  | sysconf
  | openDevice (devPath : Bytes) (mode : MemoryAccessMode)
  | mmap (length : UInt64) (mode : MemoryAccessMode) (fd : Nat) (offset : UInt64)
  | close (fd : Nat)
  | strerror
  | munmap (mapping : Mapping) (length : UInt64)
  | load32 (mapping : Mapping) (displacement : UInt64)
  | store32 (mapping : Mapping) (displacement : UInt64) (value : UInt32)
  | cout (text : Bytes)
  | cerr (text : Bytes)
  | signal (sig : Int)
  | loadStopRequested
  | sleepFor (interval : Nat)

/-- A negative descriptor and `MAP_FAILED` are `none`. -/
def ToolOp.Res : ToolOp → Type
  | .sysconf => Int64
  | .openDevice _ _ => Option Nat
  | .mmap _ _ _ _ => Option Mapping
  | .strerror => Bytes
  | .load32 _ _ => UInt32
  | .loadStopRequested => Bool
  | _ => Unit

abbrev Tool : Type → Type := Prog ToolOp ToolOp.Res

abbrev call (op : ToolOp) : Tool op.Res := perform op

def SIGINT : Int := 2

def SIGTERM : Int := 15

/-- `signal_handler`, installed for some signals: whether it sets `g_stop_requested`. -/
def signalHandler (handlers : List Int) (sig : Int) : Bool :=
  handlers.contains sig && (sig = SIGINT || sig = SIGTERM)

/-- What happens before a call. A signal without a handler is ignored here, although its default
action would end the process: what is shown is about the processes that live on.
-/
def Computer.before (s : Computer) (answer : Answer) : Computer :=
  { s with
    memory := answer.others s.memory
    stopRequested := s.stopRequested || answer.signal.any (signalHandler s.handlers) }

/-- The word lies in a live mapping, at an address where words may be. -/
def Computer.accessible (s : Computer) (mapping : Mapping) (displacement : UInt64)
    (ok : MemoryAccessMode → Bool)
    : Bool :=
  s.mappings.any (fun held => held.mapping = mapping && ok held.mode)
  && displacement.toNat + 4 ≤ mapping.extent
  && (s.unaligned || (mapping.start + displacement.toNat) % 4 = 0)

def word (contents : Contents) (address : Nat) : UInt32 := (load contents 4 address).toUInt32

def setWord (contents : Contents) (address : Nat) (value : UInt32) : Contents :=
  store contents 4 address value.toNat

def exec (answer : Answer) (op : ToolOp) (s : Computer) : Outcome op.Res Computer :=
  let s := s.before answer
  match op with
  | .sysconf => .done answer.sysconf s
  | .openDevice _ mode =>
      match answer.opened with
      | .ok fd => .done (some fd) { s with descriptors := (fd, mode) :: s.descriptors }
      | .error errno => .done none { s with errno, deeds := s.deeds ++ [.refused errno] }
  | .mmap length mode fd offset =>
      if (fd, mode) ∈ s.descriptors then
        match if length = 0 then .error (utf8 "Invalid argument") else answer.mapped with
        | .ok more =>
            let held : Held := ⟨⟨offset.toNat, length.toNat + more⟩, length, mode⟩
            .done (some held.mapping) { s with
              mappings := held :: s.mappings
              deeds := s.deeds ++ [.granted held] }
        | .error errno => .done none { s with errno, deeds := s.deeds ++ [.refused errno] }
      else .fault
  | .close fd =>
      if s.descriptors.any (·.1 = fd) then
        match answer.closed with
        | .ok () => .done () { s with descriptors := s.descriptors.eraseP (·.1 = fd) }
        | .error errno => .done () { s with descriptors := s.descriptors.eraseP (·.1 = fd), errno }
      else .fault
  | .strerror => .done s.errno s
  | .munmap mapping length =>
      if s.mappings.any (fun held => held.mapping = mapping && held.length = length) then
        .done () { s with
          mappings := s.mappings.eraseP
            (fun held => held.mapping = mapping && held.length = length) }
      else .fault
  | .load32 mapping displacement =>
      if s.accessible mapping displacement (fun _ => true) then
        let address := mapping.start + displacement.toNat
        let value := word s.memory address
        .done value { s with deeds := s.deeds ++ [.loaded address value] }
      else .fault
  | .store32 mapping displacement value =>
      if s.accessible mapping displacement (· = .readWrite) then
        let address := mapping.start + displacement.toNat
        .done () { s with
          memory := setWord s.memory address value
          deeds := s.deeds ++ [.stored address value] }
      else .fault
  | .cout text => .done () { s with output := s.output ++ text }
  | .cerr text => .done () { s with errors := s.errors ++ text }
  | .signal sig => .done () { s with handlers := sig :: s.handlers }
  | .loadStopRequested => .done s.stopRequested s
  | .sleepFor interval => .done () { s with deeds := s.deeds ++ [.slept interval] }

/-- The documented answers: a page size is a power of two. What the others write is bounded by
a relation that holds for their writes together, too.
-/
structure Answer.Lawful (rely : Contents → Contents → Prop) (answer : Answer) : Prop where
  page : ∃ exponent, (pageSizeOf answer.sysconf).toNat = 2 ^ exponent
  others : ∀ contents, rely contents (answer.others contents)

/-- What others do: they write to the memory, and a stop that is requested stays requested. -/
structure Drift (rely : Contents → Contents → Prop) (contents : Contents) (stop : Bool)
    (contents' : Contents) (stop' : Bool)
    : Prop where
  relied : rely contents contents'
  stays : stop = true → stop' = true

theorem Drift.refl {rely : Contents → Contents → Prop} [IsPreorder Contents rely]
    {contents : Contents} {stop : Bool}
    : Drift rely contents stop contents stop :=
  ⟨refl_of rely contents, id⟩

theorem Drift.trans {rely : Contents → Contents → Prop} [IsPreorder Contents rely]
    {first second third : Contents} {stop stop' stop'' : Bool}
    (earlier : Drift rely first stop second stop') (later : Drift rely second stop' third stop'')
    : Drift rely first stop third stop'' :=
  ⟨trans_of rely earlier.relied later.relied, fun was => later.stays (earlier.stays was)⟩

/-- What the process has seen or made of the memory in between is where the later part starts. -/
theorem Drift.after {rely : Contents → Contents → Prop} {first second seen third : Contents}
    {stop stop' stop'' : Bool} (later : Drift rely seen stop' third stop'')
    (earlier : Drift rely first stop second stop')
    : Drift rely seen stop third stop'' :=
  ⟨later.relied, fun was => later.stays (earlier.stays was)⟩

/-- The states that differ only in what the process does not control. -/
inductive Beside (rely : Contents → Contents → Prop) (s : Computer) : Computer → Prop where
  | intro {contents : Contents} {stop : Bool} {errno : Bytes}
      (drift : Drift rely s.memory s.stopRequested contents stop)
      : Beside rely s { s with memory := contents, stopRequested := stop, errno }

variable {rely : Contents → Contents → Prop} {s s' s'' : Computer} {α : Type}

@[simp] theorem Computer.before_accessible (answer : Answer) (mapping : Mapping)
    (displacement : UInt64) (ok : MemoryAccessMode → Bool)
    : (s.before answer).accessible mapping displacement ok
      = s.accessible mapping displacement ok := rfl

theorem Answer.Lawful.drift {answer : Answer} (lawful : answer.Lawful rely) (s : Computer)
    : Drift rely s.memory s.stopRequested (s.before answer).memory
        (s.before answer).stopRequested :=
  ⟨lawful.others s.memory, fun stopped => Bool.or_eq_true_iff.mpr (.inl stopped)⟩

theorem Computer.before_beside {answer : Answer} (lawful : answer.Lawful rely)
    : Beside rely s (s.before answer) :=
  .intro (lawful.drift s)

/-- A call that fails leaves an error number. -/
theorem Computer.failed_beside {answer : Answer} (lawful : answer.Lawful rely) (errno : Bytes)
    : Beside rely s { s.before answer with errno } :=
  .intro (lawful.drift s)

theorem Beside.refused {answer : Answer} (lawful : answer.Lawful rely) (errno : Bytes)
    : Beside rely { s with deeds := s.deeds ++ [.refused errno] }
        { s.before answer with errno, deeds := s.deeds ++ [.refused errno] } :=
  .intro (lawful.drift s)

theorem Beside.stays (kept : Beside rely s s')
    : s.stopRequested = true → s'.stopRequested = true := by
  obtain ⟨drift⟩ := kept
  exact drift.stays

theorem Beside.mappings (kept : Beside rely s s') : s'.mappings = s.mappings := by
  obtain ⟨_⟩ := kept
  rfl

theorem Beside.deeds (kept : Beside rely s s') : s'.deeds = s.deeds := by
  obtain ⟨_⟩ := kept
  rfl

theorem Beside.unaligned (kept : Beside rely s s') : s'.unaligned = s.unaligned := by
  obtain ⟨_⟩ := kept
  rfl

theorem Beside.refl [IsPreorder Contents rely] (s : Computer) : Beside rely s s :=
  .intro .refl

theorem Beside.trans [IsPreorder Contents rely] (first : Beside rely s s')
    (second : Beside rely s' s'')
    : Beside rely s s'' := by
  obtain ⟨earlier⟩ := first
  obtain ⟨later⟩ := second
  exact .intro (earlier.trans later)

-----------------------------------------------------------------------------------------
-- One call after the other
-----------------------------------------------------------------------------------------

/-- What holds whatever the environment answers and the others do. -/
abbrev Always (rely : Contents → Contents → Prop) (code : Tool α) (post : α → Computer → Prop)
    (s : Computer)
    : Prop :=
  Prog.Always exec (Answer.Lawful rely) code post s

section Calls

variable {post : α → Computer → Prop} {op : ToolOp} {next : op.Res → Tool α}

theorem Always.called
    (completes : ∀ answer, answer.Lawful rely
      → ∃ result s', exec answer op s = .done result s' ∧ Always rely (next result) post s')
    : Always rely (call op >>= next) post s :=
  completes

theorem Always.sysconf {next : ToolOp.Res .sysconf → Tool α}
    (rest : ∀ size s', (∃ exponent, (pageSizeOf size).toNat = 2 ^ exponent) → Beside rely s s'
      → Always rely (next size) post s')
    : Always rely (call .sysconf >>= next) post s :=
  .called (fun _ lawful => ⟨_, _, rfl, rest _ _ lawful.page (Computer.before_beside lawful)⟩)

theorem Always.openDevice {devPath : Bytes} {mode : MemoryAccessMode}
    {next : ToolOp.Res (.openDevice devPath mode) → Tool α}
    (failed : ∀ errno s', Beside rely { s with deeds := s.deeds ++ [.refused errno] } s'
      → Always rely (next none) post s')
    (opened : ∀ fd s', Beside rely { s with descriptors := (fd, mode) :: s.descriptors } s'
      → Always rely (next (some fd)) post s')
    : Always rely (call (.openDevice devPath mode) >>= next) post s := by
  refine .called (fun answer lawful => ?_)
  simp only [exec]
  cases answer.opened with
  | ok fd => exact ⟨some fd, _, rfl, opened fd _ (Computer.before_beside lawful)⟩
  | error errno => exact ⟨none, _, rfl, failed errno _ (.refused lawful errno)⟩

theorem Always.mmap {length offset : UInt64} {mode : MemoryAccessMode} {fd : Nat}
    {next : ToolOp.Res (.mmap length mode fd offset) → Tool α} (isOpen : (fd, mode) ∈ s.descriptors)
    (failed : ∀ errno s', Beside rely { s with deeds := s.deeds ++ [.refused errno] } s'
      → Always rely (next none) post s')
    (mapped : ∀ held s', length ≠ 0
      → (∃ more, held = ⟨⟨offset.toNat, length.toNat + more⟩, length, mode⟩)
      → Beside rely { s with
          mappings := held :: s.mappings, deeds := s.deeds ++ [.granted held] } s'
      → Always rely (next (some held.mapping)) post s')
    : Always rely (call (.mmap length mode fd offset) >>= next) post s := by
  refine .called (fun answer lawful => ?_)
  simp only [exec]
  rw [if_pos (show (fd, mode) ∈ (s.before answer).descriptors from isOpen)]
  by_cases zero : length = 0
  · rw [if_pos zero]
    exact ⟨none, _, rfl, failed _ _ (.refused lawful _)⟩
  · rw [if_neg zero]
    cases answer.mapped with
    | ok more => exact ⟨_, _, rfl, mapped _ _ zero ⟨more, rfl⟩ (Computer.before_beside lawful)⟩
    | error errno => exact ⟨none, _, rfl, failed errno _ (.refused lawful errno)⟩

theorem Always.close {fd : Nat} {mode : MemoryAccessMode}
    {others : List (Nat × MemoryAccessMode)} {next : ToolOp.Res (.close fd) → Tool α}
    (isOpen : s.descriptors = (fd, mode) :: others)
    (rest : ∀ s', Beside rely { s with descriptors := others } s' → Always rely (next ()) post s')
    : Always rely (call (.close fd) >>= next) post s := by
  refine .called (fun answer lawful => ?_)
  have isOpen' : (s.before answer).descriptors = (fd, mode) :: others := isOpen
  simp only [exec, isOpen', List.any_cons, decide_true, Bool.true_or, if_true,
    List.eraseP_cons_of_pos]
  cases answer.closed with
  | ok _ => exact ⟨(), _, rfl, rest _ (Computer.before_beside lawful)⟩
  | error errno =>
      refine ⟨(), _, rfl, rest _ ?_⟩
      exact Computer.failed_beside (s := { s with descriptors := others }) lawful errno

theorem Always.strerror {next : ToolOp.Res .strerror → Tool α}
    (rest : ∀ text s', Beside rely s s' → Always rely (next text) post s')
    : Always rely (call .strerror >>= next) post s :=
  .called (fun _ lawful => ⟨_, _, rfl, rest _ _ (Computer.before_beside lawful)⟩)

theorem Always.munmap {held : Held} {others : List Held}
    {next : ToolOp.Res (.munmap held.mapping held.length) → Tool α}
    (isMapped : s.mappings = held :: others)
    (rest : ∀ s', Beside rely { s with mappings := others } s' → Always rely (next ()) post s')
    : Always rely (call (.munmap held.mapping held.length) >>= next) post s := by
  refine .called (fun answer lawful => ?_)
  have mapped : (s.before answer).mappings = held :: others := isMapped
  simp only [exec, mapped, List.any_cons, decide_true, Bool.and_self, Bool.true_or, if_true,
    List.eraseP_cons_of_pos]
  exact ⟨(), _, rfl, rest _ (Computer.before_beside lawful)⟩

theorem Always.load32 [IsPreorder Contents rely] {mapping : Mapping} {displacement : UInt64}
    {next : ToolOp.Res (.load32 mapping displacement) → Tool α} {address : Nat}
    (accessible : s.accessible mapping displacement (fun _ => true) = true)
    (isAddress : mapping.start + displacement.toNat = address)
    (rest : ∀ contents s', rely s.memory contents
      → Beside rely { s with
          memory := contents
          deeds := s.deeds ++ [.loaded address (word contents address)] } s'
      → Always rely (next (word contents address)) post s')
    : Always rely (call (.load32 mapping displacement) >>= next) post s := by
  refine .called (fun answer lawful => ?_)
  subst isAddress
  simp only [exec, Computer.before_accessible, accessible, if_true]
  refine ⟨_, _, rfl, rest (answer.others s.memory) _ (lawful.others _) ?_⟩
  exact .intro ⟨refl_of rely _, (lawful.drift s).stays⟩

theorem Always.store32 [IsPreorder Contents rely] {mapping : Mapping} {displacement : UInt64}
    {value : UInt32} {next : ToolOp.Res (.store32 mapping displacement value) → Tool α}
    {address : Nat} (accessible : s.accessible mapping displacement (· = .readWrite) = true)
    (isAddress : mapping.start + displacement.toNat = address)
    (rest : ∀ contents s', rely s.memory contents
      → Beside rely { s with
          memory := setWord contents address value
          deeds := s.deeds ++ [.stored address value] } s'
      → Always rely (next ()) post s')
    : Always rely (call (.store32 mapping displacement value) >>= next) post s := by
  refine .called (fun answer lawful => ?_)
  subst isAddress
  simp only [exec, Computer.before_accessible, accessible, if_true]
  refine ⟨(), _, rfl, rest (answer.others s.memory) _ (lawful.others _) ?_⟩
  exact .intro ⟨refl_of rely _, (lawful.drift s).stays⟩

theorem Always.cout {text : Bytes} {next : ToolOp.Res (.cout text) → Tool α}
    (rest : ∀ s', Beside rely { s with output := s.output ++ text } s'
      → Always rely (next ()) post s')
    : Always rely (call (.cout text) >>= next) post s :=
  .called (fun _ lawful => ⟨(), _, rfl, rest _ (Computer.before_beside lawful)⟩)

theorem Always.cerr {text : Bytes} {next : ToolOp.Res (.cerr text) → Tool α}
    (rest : ∀ s', Beside rely { s with errors := s.errors ++ text } s'
      → Always rely (next ()) post s')
    : Always rely (call (.cerr text) >>= next) post s :=
  .called (fun _ lawful => ⟨(), _, rfl, rest _ (Computer.before_beside lawful)⟩)

theorem Always.signal {sig : Int} {next : ToolOp.Res (.signal sig) → Tool α}
    (rest : ∀ s', Beside rely { s with handlers := sig :: s.handlers } s'
      → Always rely (next ()) post s')
    : Always rely (call (.signal sig) >>= next) post s :=
  .called (fun _ lawful => ⟨(), _, rfl, rest _ (.intro (lawful.drift s))⟩)

theorem Always.loadStopRequested {next : ToolOp.Res .loadStopRequested → Tool α}
    (rest : ∀ s', Beside rely s s' → Always rely (next s'.stopRequested) post s')
    : Always rely (call .loadStopRequested >>= next) post s :=
  .called (fun _ lawful => ⟨_, _, rfl, rest _ (Computer.before_beside lawful)⟩)

theorem Always.sleepFor {interval : Nat} {next : ToolOp.Res (.sleepFor interval) → Tool α}
    (rest : ∀ s', Beside rely { s with deeds := s.deeds ++ [.slept interval] } s'
      → Always rely (next ()) post s')
    : Always rely (call (.sleepFor interval) >>= next) post s :=
  .called (fun _ lawful => ⟨(), _, rfl, rest _ (Computer.before_beside lawful)⟩)

end Calls

end SafetyIsolation.Devmem
