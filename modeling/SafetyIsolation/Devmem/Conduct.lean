import SafetyIsolation.Devmem.Watching

/-! What a run of `devmem` comes to, for every command line: it talks, or it reads, writes or
watches the word it is asked for. Its resources are released when it exits.
-/

namespace SafetyIsolation.Devmem

open SafetyIsolation.Interleaving SafetyIsolation.Memory SafetyIsolation.Text

variable {rely : Contents → Contents → Prop} [IsPreorder Contents rely] {turns : Nat}
  {progName : Bytes} {args : List Bytes} {s t s' : Computer} {physAddr : UInt64}

/-- The address of the word that a command line asks for. -/
def target : List Bytes → Option UInt64
  | subcommand :: address :: rest =>
      if subcommand = utf8 "read" ∨ subcommand = utf8 "watch"
          ∨ subcommand = utf8 "write" ∧ (rest.head?.any (fun value => (parseValue32 value).isOk))
      then (parseAddress address).toOption
      else none
  | _ => none

/-- A run ends in one of these ways: it talks since no word is asked for, the system refuses the
mapping, or the word is read, written or watched.
-/
inductive Conduct (rely : Contents → Contents → Prop) (turns : Nat) (args : List Bytes)
    (s : Computer)
    : Option Nat → Computer → Prop where
  | talked {code : Nat} {s' : Computer} (output errors : Bytes) (unasked : target args = none)
      (isCode : code = kExitFailure ∨ code = kExitSuccess ∧ args.head? ≠ some (utf8 "write"))
      (kept : Beside rely { s with
        output := s.output ++ output, errors := s.errors ++ errors } s')
      : Conduct rely turns args s (some code) s'
  | refused {s' : Computer} (errno errors : Bytes) (handlers : List Int)
      (kept : Beside rely { s with
        errors := s.errors ++ errors, handlers, deeds := s.deeds ++ [.refused errno] } s')
      : Conduct rely turns args s (some kExitFailure) s'
  | read {address : Bytes} {rest : List Bytes} {physAddr : UInt64} {held : Held}
      {contents : Contents} {s' : Computer} (asked : args = utf8 "read" :: address :: rest)
      (parsed : parseAddress address = .ok physAddr) (relied : rely s.memory contents)
      (kept : Beside rely { s with
        memory := contents
        deeds := s.deeds
          ++ [.granted held, .loaded physAddr.toNat (word contents physAddr.toNat)]
        output := s.output
          ++ (utf8 "0x" ++ upperHex 8 (word contents physAddr.toNat).toNat ++ utf8 "\n") } s')
      : Conduct rely turns args s (some kExitSuccess) s'
  | wrote {address value : Bytes} {rest : List Bytes} {physAddr : UInt64} {val : UInt32}
      {held : Held} {contents : Contents} {s' : Computer}
      (asked : args = utf8 "write" :: address :: value :: rest)
      (parsed : parseAddress address = .ok physAddr) (parsedValue : parseValue32 value = .ok val)
      (relied : rely s.memory contents)
      (kept : Beside rely { s with
        memory := setWord contents physAddr.toNat val
        deeds := s.deeds ++ [.granted held, .stored physAddr.toNat val]
        output := s.output
          ++ (utf8 "Wrote 0x" ++ upperHex 8 val.toNat
            ++ utf8 " to 0x" ++ upperHex 8 physAddr.toNat ++ utf8 "\n") } s')
      : Conduct rely turns args s (some kExitSuccess) s'
  | watched {address : Bytes} {rest : List Bytes} {physAddr : UInt64} {interval : Nat}
      {warning : Bytes} {s' : Computer} (ended : Bool)
      (asked : args = utf8 "watch" :: address :: rest)
      (parsed : parseAddress address = .ok physAddr) (positive : 0 < interval)
      (session : Session rely { physAddr, interval } true turns
        { s with errors := s.errors ++ warning, handlers := SIGTERM :: SIGINT :: s.handlers }
        ended s')
      : Conduct rely turns args s (if ended then some kExitSuccess else none) s'

-----------------------------------------------------------------------------------------
-- Talking
-----------------------------------------------------------------------------------------

omit [IsPreorder Contents rely] in
theorem failure_conduct {complaint : Bytes} (unasked : target args = none)
    : Always rely (failure complaint) (Conduct rely turns args s) s := by
  refine .cerr (fun s₁ kept₁ => ?_)
  obtain ⟨drift₁⟩ := kept₁
  refine .talked [] (complaint ++ utf8 "\n") unasked (.inl rfl) ?_
  rw [List.append_nil]
  exact .intro drift₁

theorem misuse_conduct {complaint : Bytes} (unasked : target args = none)
    : Always rely (misuse progName complaint) (Conduct rely turns args s) s := by
  refine .cerr (fun s₁ kept₁ => ?_)
  obtain ⟨drift₁⟩ := kept₁
  refine .cout (fun s₂ kept₂ => ?_)
  obtain ⟨drift₂⟩ := kept₂
  exact .talked _ _ unasked (.inl rfl) (.intro (drift₁.trans drift₂))

omit [IsPreorder Contents rely] in
theorem printUsage_conduct {code : Nat} (unasked : target args = none)
    (isCode : code = kExitFailure ∨ code = kExitSuccess ∧ args.head? ≠ some (utf8 "write"))
    : Always rely (printUsage progName >>= fun _ => pure (some code)) (Conduct rely turns args s)
        s := by
  refine .cout (fun s₁ kept₁ => ?_)
  obtain ⟨drift₁⟩ := kept₁
  refine .talked (usage progName) [] unasked isCode ?_
  rw [List.append_nil]
  exact .intro drift₁

theorem warned_refusal_conduct {complaint : Bytes} (errno : Bytes) (handlers : List Int)
    (warning : Bytes) (kept : Beside rely { s with
      errors := s.errors ++ warning, handlers, deeds := s.deeds ++ [.refused errno] } t)
    : Always rely (failure complaint) (Conduct rely turns args s) t := by
  obtain ⟨drift⟩ := kept
  refine .cerr (fun s₁ kept₁ => ?_)
  obtain ⟨drift₁⟩ := kept₁
  refine .refused errno (warning ++ (complaint ++ utf8 "\n")) handlers ?_
  dsimp only
  rw [← List.append_assoc s.errors warning]
  exact .intro (drift.trans drift₁)

theorem refusal_conduct {complaint errno : Bytes}
    (kept : Beside rely { s with deeds := s.deeds ++ [.refused errno] } t)
    : Always rely (failure complaint) (Conduct rely turns args s) t := by
  refine warned_refusal_conduct errno s.handlers [] ?_
  rw [List.append_nil]
  exact kept

-----------------------------------------------------------------------------------------
-- The subcommands
-----------------------------------------------------------------------------------------

theorem toOption_of_ok {result : Except Bytes UInt64} (isOk : result = .ok physAddr)
    : result.toOption = some physAddr := by
  rw [isOk]
  rfl

theorem target_unparsed {subcommand address error : Bytes} {rest : List Bytes}
    (unparsed : parseAddress address = .error error)
    : target (subcommand :: address :: rest) = none := by
  rw [target, unparsed]
  split <;> rfl

theorem target_read {address : Bytes} {rest : List Bytes}
    (parsed : parseAddress address = .ok physAddr)
    : target (utf8 "read" :: address :: rest) = some physAddr := by
  rw [target, if_pos (.inl rfl), toOption_of_ok parsed]

theorem target_watch {address : Bytes} {rest : List Bytes}
    (parsed : parseAddress address = .ok physAddr)
    : target (utf8 "watch" :: address :: rest) = some physAddr := by
  rw [target, if_pos (.inr (.inl rfl)), toOption_of_ok parsed]

theorem target_write {address value : Bytes} {rest : List Bytes} {val : UInt32}
    (parsed : parseAddress address = .ok physAddr) (parsedValue : parseValue32 value = .ok val)
    : target (utf8 "write" :: address :: value :: rest) = some physAddr := by
  have valid : ((value :: rest).head?.any (fun value => (parseValue32 value).isOk)) = true := by
    rw [List.head?_cons, Option.any_some, parsedValue]
    rfl
  rw [target, if_pos (.inr (.inr ⟨rfl, valid⟩)), toOption_of_ok parsed]

theorem target_invalid {address value error : Bytes} {rest : List Bytes}
    (invalid : parseValue32 value = .error error)
    : target (utf8 "write" :: address :: value :: rest) = none := by
  rw [target, if_neg]
  rintro (isRead | isWatch | ⟨_, valid⟩)
  · exact absurd isRead (by decide)
  · exact absurd isWatch (by decide)
  · rw [List.head?_cons, Option.any_some, invalid] at valid
    cases valid

theorem target_other {subcommand : Bytes} {rest : List Bytes} (notRead : subcommand ≠ utf8 "read")
    (notWatch : subcommand ≠ utf8 "watch") (notWrite : subcommand ≠ utf8 "write")
    : target (subcommand :: rest) = none := by
  cases rest with
  | nil => rfl
  | cons address rest =>
      rw [target, if_neg]
      rintro (isRead | isWatch | ⟨isWrite, _⟩)
      · exact notRead isRead
      · exact notWatch isWatch
      · exact notWrite isWrite

/-- The interval is never zero. -/
theorem chooseInterval_spec {α : Type} {post : α → Computer → Prop} {next : Nat → Tool α}
    {rest : List Bytes}
    (chosen : ∀ interval warning s', 0 < interval
      → Beside rely { s with errors := s.errors ++ warning } s'
      → Always rely (next interval) post s')
    : Always rely (chooseInterval rest >>= next) post s := by
  have silent {interval : Nat} (positive : 0 < interval) : Always rely (next interval) post s := by
    refine chosen interval [] s positive ?_
    rw [List.append_nil]
    exact .refl s
  cases rest with
  | nil => exact silent (by decide)
  | cons text rest =>
      simp only [chooseInterval]
      cases stoi text with
      | ok ms =>
          refine silent ?_
          split
          · omega
          · decide
      | error what => exact .cerr (fun s₁ kept₁ => chosen _ _ s₁ (by decide) kept₁)

/-- What others do before a watch starts belongs to the watch. -/
theorem Session.of_beside {options : WatchOptions} {listens ended : Bool} (kept : Beside rely s t)
    (session : Session rely options listens turns t ended s')
    : Session rely options listens turns s ended s' := by
  obtain ⟨drift⟩ := kept
  obtain ⟨held, first, snapshots, isMode, covers, order, kept', facts⟩ := session
  obtain ⟨drift'⟩ := kept'
  exact ⟨held, first, snapshots, isMode, covers, pairwise_since drift.relied order,
    .intro (drift.trans drift'), facts⟩

section Subcommands

variable (allows : ∀ physAddr, target args = some physAddr → s.Allows physAddr)
include allows

theorem handleReadCmd_conduct {rest : List Bytes} (asked : args = utf8 "read" :: rest)
    : Always rely (handleReadCmd progName rest) (Conduct rely turns args s) s := by
  cases rest with
  | nil => exact misuse_conduct (asked ▸ rfl)
  | cons address rest =>
      rw [handleReadCmd]
      cases parsed : parseAddress address with
      | error error => exact failure_conduct (asked ▸ target_unparsed parsed)
      | ok physAddr =>
          refine readPhys_word (allows physAddr (asked ▸ target_read parsed))
            (fun error errno s₁ kept₁ => ?_) (fun held contents s₁ relied kept₁ => ?_)
          · exact refusal_conduct kept₁
          · obtain ⟨drift₁⟩ := kept₁
            refine .cout (fun s₂ kept₂ => ?_)
            obtain ⟨drift₂⟩ := kept₂
            exact .read asked parsed relied (.intro (drift₁.trans drift₂))

theorem handleWriteCmd_conduct {rest : List Bytes} (asked : args = utf8 "write" :: rest)
    : Always rely (handleWriteCmd progName rest) (Conduct rely turns args s) s := by
  rcases rest with _ | ⟨address, _ | ⟨value, rest⟩⟩
  · exact misuse_conduct (asked ▸ rfl)
  · exact misuse_conduct (asked ▸ rfl)
  · rw [handleWriteCmd]
    cases parsed : parseAddress address with
    | error error => exact failure_conduct (asked ▸ target_unparsed parsed)
    | ok physAddr =>
        cases parsedValue : parseValue32 value with
        | error error => exact failure_conduct (asked ▸ target_invalid parsedValue)
        | ok val =>
            refine writePhys_word (allows physAddr (asked ▸ target_write parsed parsedValue))
              (fun error errno s₁ kept₁ => refusal_conduct kept₁)
              (fun held contents s₁ relied kept₁ => ?_)
            obtain ⟨drift₁⟩ := kept₁
            refine .cout (fun s₂ kept₂ => ?_)
            obtain ⟨drift₂⟩ := kept₂
            exact .wrote asked parsed parsedValue relied (.intro (drift₁.trans drift₂))

theorem handleWatchCmd_conduct {rest : List Bytes} (asked : args = utf8 "watch" :: rest)
    : Always rely (handleWatchCmd turns progName rest) (Conduct rely turns args s) s := by
  cases rest with
  | nil => exact misuse_conduct (asked ▸ rfl)
  | cons address rest =>
      rw [handleWatchCmd]
      cases parsed : parseAddress address with
      | error error => exact failure_conduct (asked ▸ target_unparsed parsed)
      | ok physAddr =>
          refine chooseInterval_spec (fun interval warning s₁ positive kept₁ => ?_)
          obtain ⟨drift₁⟩ := kept₁
          refine .signal (fun s₂ kept₂ => ?_)
          obtain ⟨drift₂⟩ := kept₂
          refine .signal (fun s₃ kept₃ => ?_)
          have kept : Beside rely { s with
              errors := s.errors ++ warning, handlers := SIGTERM :: SIGINT :: s.handlers } s₃ := by
            obtain ⟨drift₃⟩ := kept₃
            exact .intro (drift₁.trans (drift₂.trans drift₃))
          have allowed : s₃.Allows physAddr :=
            (allows physAddr (asked ▸ target_watch parsed)).of_eq kept.unaligned
          have listens : call .loadStopRequested = stopTest true := rfl
          rw [listens]
          refine watchPhys32_session allowed (fun error errno s₄ _ kept₄ => ?_)
            (fun s₄ session => .watched true asked parsed positive (.of_beside kept session))
            (fun s₄ session => .watched false asked parsed positive (.of_beside kept session))
          obtain ⟨drift⟩ := kept
          exact warned_refusal_conduct errno (SIGTERM :: SIGINT :: s.handlers) warning
            (.trans (.intro drift) kept₄)

/-- Every run of the program comes to one of these ends. -/
theorem main_conduct : Always rely (main turns progName args) (Conduct rely turns args s) s := by
  cases args with
  | nil => exact printUsage_conduct rfl (.inl rfl)
  | cons subcommand rest =>
      rw [main]
      split
      · rename_i help
        have other : subcommand ≠ utf8 "read" ∧ subcommand ≠ utf8 "watch"
            ∧ subcommand ≠ utf8 "write" := by
          simp only [List.mem_cons, List.not_mem_nil, or_false] at help
          rcases help with rfl | rfl | rfl <;> decide
        exact printUsage_conduct (target_other other.1 other.2.1 other.2.2)
          (.inr ⟨rfl, fun same => other.2.2 (Option.some.inj same)⟩)
      · split
        · rename_i isRead
          exact handleReadCmd_conduct allows (congrArg (· :: rest) isRead)
        · rename_i notRead
          split
          · rename_i isWrite
            exact handleWriteCmd_conduct allows (congrArg (· :: rest) isWrite)
          · rename_i notWrite
            split
            · rename_i isWatch
              exact handleWatchCmd_conduct allows (congrArg (· :: rest) isWatch)
            · rename_i notWatch
              exact misuse_conduct (target_other notRead notWatch notWrite)

end Subcommands

-----------------------------------------------------------------------------------------
-- Resources
-----------------------------------------------------------------------------------------

/-- Nothing is kept open. What is mapped is given back at the exit; a watch that goes on has its
one mapping, which it cannot write through.
-/
structure Tidy (s : Computer) (exit : Option Nat) (s' : Computer) : Prop where
  descriptors : s'.descriptors = s.descriptors
  exited : ∀ code, exit = some code → s'.mappings = s.mappings
  watching : exit = none → ∃ held, held.mode = .readOnly ∧ s'.mappings = held :: s.mappings

theorem Tidy.of_exit {code : Nat} (descriptors : s'.descriptors = s.descriptors)
    (mappings : s'.mappings = s.mappings)
    : Tidy s (some code) s' :=
  ⟨descriptors, fun _ _ => mappings, fun isNone => absurd isNone (Option.some_ne_none code)⟩

omit [IsPreorder Contents rely] in
theorem Conduct.tidy {exit : Option Nat} (conduct : Conduct rely turns args s exit s')
    : Tidy s exit s' := by
  cases conduct with
  | talked output errors unasked isCode kept =>
      obtain ⟨_⟩ := kept
      exact .of_exit rfl rfl
  | refused errno errors handlers kept =>
      obtain ⟨_⟩ := kept
      exact .of_exit rfl rfl
  | read asked parsed relied kept =>
      obtain ⟨_⟩ := kept
      exact .of_exit rfl rfl
  | wrote asked parsed parsedValue relied kept =>
      obtain ⟨_⟩ := kept
      exact .of_exit rfl rfl
  | watched ended asked parsed positive session =>
      obtain ⟨held, first, snapshots, isMode, covers, order, kept, facts⟩ := session
      obtain ⟨_⟩ := kept
      cases ended with
      | true => exact .of_exit rfl rfl
      | false => exact ⟨rfl, (fun code some => by cases some), fun _ => ⟨held, isMode, rfl⟩⟩

-----------------------------------------------------------------------------------------
-- Where words may not be
-----------------------------------------------------------------------------------------

section Obliging

variable {α : Type} {post : α → Computer → Prop}

/-- A system that answers every call with success. -/
theorem obliging_lawful : (default : Answer).Lawful rely :=
  ⟨⟨12, by decide⟩, fun contents => refl_of rely contents⟩

theorem Always.obliged {op : ToolOp} {next : op.Res → Tool α}
    (completes : Always rely (call op >>= next) post s)
    : ∃ result s', exec default op s = .done result s' ∧ Always rely (next result) post s' :=
  completes default obliging_lawful

omit [IsPreorder Contents rely] in
theorem exec_unaligned {answer : Answer} {op : ToolOp} {result : op.Res}
    (done : exec answer op s = .done result s')
    : s'.unaligned = s.unaligned := by
  cases op with
  | openDevice devPath mode =>
      simp only [exec] at done
      split at done <;> (cases done; rfl)
  | mmap length mode fd offset =>
      simp only [exec] at done
      split at done
      · split at done <;> (cases done; rfl)
      · cases done
  | close fd =>
      simp only [exec] at done
      split at done
      · split at done <;> (cases done; rfl)
      · cases done
  | munmap mapping length | load32 mapping displacement | store32 mapping displacement value =>
      simp only [exec] at done
      split at done
      · cases done
        rfl
      · cases done
  | sysconf | strerror | cout text | cerr text | signal sig | loadStopRequested
    | sleepFor interval =>
      cases done
      rfl

omit [IsPreorder Contents rely] in
theorem openDevice_obliging {devPath : Bytes} {mode : MemoryAccessMode} {opened : Option Nat}
    (done : exec default (.openDevice devPath mode) s = .done opened s')
    : opened = some 3 ∧ (3, mode) ∈ s'.descriptors := by
  cases done
  exact ⟨rfl, List.mem_cons_self⟩

omit [IsPreorder Contents rely] in
theorem mmap_obliging {length offset : UInt64} {mode : MemoryAccessMode} {fd : Nat}
    {rawPtr : Option Mapping} (isOpen : (fd, mode) ∈ s.descriptors) (nonzero : length ≠ 0)
    (done : exec default (.mmap length mode fd offset) s = .done rawPtr s')
    : rawPtr = some ⟨offset.toNat, length.toNat⟩ := by
  have isOpen' : (fd, mode) ∈ (s.before default).descriptors := isOpen
  simp only [exec] at done
  rw [if_pos isOpen', if_neg nonzero] at done
  cases done
  rfl

theorem mapDevice_obliged {mode : MemoryAccessMode} {devPath : Bytes}
    {next : Except Bytes PhysicalMemoryView → Tool α}
    (completes : Always rely (PhysicalMemoryView.mapDevice physAddr 4 mode devPath >>= next) post s)
    : ∃ v mapping deleter s₁,
        v.mapping = some (mapping, deleter)
        ∧ mapping.start + (v.offsetInPage + (0 : Int64).toUInt64).toNat = physAddr.toNat
        ∧ s₁.unaligned = s.unaligned
        ∧ Always rely (next (.ok v)) post s₁ := by
  have nonzero : (physAddr &&& (pageSizeOf 4096 - 1)) + 4 ≠ 0 := by
    have power : (pageSizeOf 4096).toNat = 2 ^ 12 := by decide
    have offset := pageOffset_toNat power physAddr
    have sum := UInt64.toNat_add (physAddr &&& (pageSizeOf 4096 - 1)) 4
    have four : (4 : UInt64).toNat = 4 := rfl
    intro zero
    rw [zero, UInt64.toNat_zero, offset, power, four] at sum
    omega
  replace completes := Prog.always_bind.mp completes
  unfold PhysicalMemoryView.mapDevice at completes
  rw [if_neg (by decide)] at completes
  obtain ⟨size, s₁, done₁, completes₁⟩ := Always.obliged completes
  obtain rfl : size = (4096 : Int64) := by
    cases done₁
    rfl
  obtain ⟨opened, s₂, done₂, completes₂⟩ := Always.obliged completes₁
  obtain ⟨rfl, isOpen⟩ := openDevice_obliging done₂
  obtain ⟨rawPtr, s₃, done₃, completes₃⟩ := Always.obliged completes₂
  obtain rfl := mmap_obliging isOpen nonzero done₃
  obtain ⟨closed, s₄, done₄, completes₄⟩ := Always.obliged completes₃
  have unaligned : s₄.unaligned = s.unaligned :=
    (exec_unaligned done₄).trans ((exec_unaligned done₃).trans
      ((exec_unaligned done₂).trans (exec_unaligned done₁)))
  refine ⟨_, _, _, s₄, rfl, ?_, unaligned, completes₄⟩
  have zero : (physAddr &&& (pageSizeOf 4096 - 1)) + (0 : Int64).toUInt64
      = physAddr &&& (pageSizeOf 4096 - 1) := UInt64.add_zero _
  dsimp only
  rw [zero]
  exact toNat_and_not_add_and physAddr (pageSizeOf 4096 - 1)

/-- A word that is loaded or stored is one that may be accessed. -/
theorem accessible_allows {mapping : Mapping} {displacement : UInt64} {ok : MemoryAccessMode → Bool}
    (accessible : s.accessible mapping displacement ok = true)
    (isAddress : mapping.start + displacement.toNat = physAddr.toNat)
    : s.Allows physAddr := by
  rw [Computer.accessible, isAddress] at accessible
  rcases Bool.or_eq_true_iff.mp (Bool.and_eq_true_iff.mp accessible).2 with unaligned | aligned
  · exact .inl unaligned
  · exact .inr (of_decide_eq_true aligned)

/-- Reading and writing at the start of a view: a load or a store that completes. -/
theorem access_obliged {op : ToolOp} {mapping : Mapping} {displacement : UInt64}
    {next : op.Res → Tool α}
    (isAccess : op = .load32 mapping displacement
      ∨ ∃ value, op = .store32 mapping displacement value)
    (isAddress : mapping.start + displacement.toNat = physAddr.toNat)
    (completes : Always rely (call op >>= next) post s)
    : s.Allows physAddr := by
  obtain ⟨result, s₁, done, -⟩ := Always.obliged completes
  have allowed : (s.before default).Allows physAddr := by
    rcases isAccess with rfl | ⟨value, rfl⟩ <;> simp only [exec] at done <;> split at done
    case inl.isTrue accessible | inr.isTrue accessible =>
      exact accessible_allows accessible isAddress
    case inl.isFalse | inr.isFalse => cases done
  exact allowed

theorem readAt_obliged {v : PhysicalMemoryView} {mapping : Mapping} {deleter : MmapDeleter}
    {next : UInt32 → Tool α} (holds : v.mapping = some (mapping, deleter))
    (isAddress : mapping.start + (v.offsetInPage + (0 : Int64).toUInt64).toNat = physAddr.toNat)
    (completes : Always rely (v.readAt 0 >>= next) post s)
    : s.Allows physAddr := by
  rw [PhysicalMemoryView.readAt, holds] at completes
  exact access_obliged (.inl rfl) isAddress completes

theorem writeAt_obliged {v : PhysicalMemoryView} {mapping : Mapping} {deleter : MmapDeleter}
    {value : UInt32} {next : Unit → Tool α} (holds : v.mapping = some (mapping, deleter))
    (isAddress : mapping.start + (v.offsetInPage + (0 : Int64).toUInt64).toNat = physAddr.toNat)
    (completes : Always rely (v.writeAt value 0 >>= next) post s)
    : s.Allows physAddr := by
  rw [PhysicalMemoryView.writeAt, holds] at completes
  exact access_obliged (.inr ⟨value, rfl⟩) isAddress completes

theorem readPhys_obliged {next : Except Bytes UInt32 → Tool α}
    (completes : Always rely (readPhys physAddr >>= next) post s)
    : s.Allows physAddr := by
  replace completes := Prog.always_bind.mp completes
  unfold readPhys at completes
  obtain ⟨v, mapping, deleter, s₁, holds, isAddress, unaligned, completes₁⟩ :=
    mapDevice_obliged completes
  exact (readAt_obliged holds isAddress completes₁).of_eq unaligned.symm

theorem writePhys_obliged {value : UInt32} {next : Except Bytes Unit → Tool α}
    (completes : Always rely (writePhys physAddr value >>= next) post s)
    : s.Allows physAddr := by
  replace completes := Prog.always_bind.mp completes
  unfold writePhys at completes
  obtain ⟨v, mapping, deleter, s₁, holds, isAddress, unaligned, completes₁⟩ :=
    mapDevice_obliged completes
  exact (writeAt_obliged holds isAddress completes₁).of_eq unaligned.symm

theorem watchPhys32_obliged {options : WatchOptions} {stop : Tool Bool}
    {next : Option (Except Bytes Unit) → Tool α}
    (completes : Always rely (watchPhys32 turns options stop >>= next) post s)
    : s.Allows options.physAddr := by
  replace completes := Prog.always_bind.mp completes
  unfold watchPhys32 at completes
  obtain ⟨v, mapping, deleter, s₁, holds, isAddress, unaligned, completes₁⟩ :=
    mapDevice_obliged completes
  obtain ⟨_, s₂, done₂, completes₂⟩ := Always.obliged completes₁
  exact (readAt_obliged holds isAddress completes₂).of_eq
    ((exec_unaligned done₂).trans unaligned).symm

theorem chooseInterval_obliged {rest : List Bytes} {next : Nat → Tool α}
    (completes : Always rely (chooseInterval rest >>= next) post s)
    : ∃ interval s₁, s₁.unaligned = s.unaligned ∧ Always rely (next interval) post s₁ := by
  cases rest with
  | nil => exact ⟨_, s, rfl, completes⟩
  | cons text rest =>
      simp only [chooseInterval] at completes
      cases found : stoi text with
      | ok ms =>
          rw [found] at completes
          exact ⟨_, s, rfl, completes⟩
      | error what =>
          rw [found] at completes
          obtain ⟨_, s₁, done₁, completes₁⟩ := Always.obliged completes
          exact ⟨_, s₁, exec_unaligned done₁, completes₁⟩

end Obliging

/-- The program completes only if the word it is asked for may be where it is. -/
theorem target_allowed {post : Option Nat → Computer → Prop}
    (completes : Always rely (main turns progName args) post s)
    (asked : target args = some physAddr)
    : s.Allows physAddr := by
  rcases args with _ | ⟨subcommand, _ | ⟨address, rest⟩⟩
  · cases asked
  · cases asked
  · rw [target] at asked
    split at asked
    · rename_i subcommands
      have parsed : parseAddress address = .ok physAddr := by
        cases result : parseAddress address with
        | ok found =>
            rw [result] at asked
            cases asked
            rfl
        | error error =>
            rw [result] at asked
            cases asked
      rw [main] at completes
      rcases subcommands with rfl | rfl | ⟨rfl, valid⟩
      · rw [if_neg (by decide), if_pos rfl, handleReadCmd, parsed] at completes
        exact readPhys_obliged completes
      · rw [if_neg (by decide), if_neg (by decide), if_neg (by decide), if_pos rfl, handleWatchCmd,
          parsed] at completes
        obtain ⟨interval, s₁, same₁, completes₁⟩ := chooseInterval_obliged completes
        obtain ⟨_, s₂, done₂, completes₂⟩ := Always.obliged completes₁
        obtain ⟨_, s₃, done₃, completes₃⟩ := Always.obliged completes₂
        exact (watchPhys32_obliged completes₃).of_eq
          ((exec_unaligned done₃).trans ((exec_unaligned done₂).trans same₁)).symm
      · rw [if_neg (by decide), if_neg (by decide), if_pos rfl] at completes
        cases rest with
        | nil => cases valid
        | cons value rest =>
            rw [handleWriteCmd, parsed] at completes
            dsimp only at completes
            cases parsedValue : parseValue32 value with
            | error error =>
                rw [List.head?_cons, Option.any_some, parsedValue] at valid
                cases valid
            | ok val =>
                rw [parsedValue] at completes
                exact writePhys_obliged completes
    · cases asked

end SafetyIsolation.Devmem
