import SafetyIsolation.Interleaving.Alone
import SafetyIsolation.Kernel.ProcWrite
import SafetyIsolation.Kernel.Sequential

/-! What a write to the control file of `safety_mem` reports, and what it has done. -/

namespace SafetyIsolation.Protection

open SafetyIsolation.Interleaving SafetyIsolation.Kernel SafetyIsolation.Text

/-- What a command asks for. -/
def requestedSetting (cmd : Bytes) : Option Bool :=
  if cmd = demoEnableCommand ∨ cmd = demoProtectCommand then some true
  else if cmd = demoDisableCommand ∨ cmd = demoUnprotectCommand then some false
  else none

/-- What the text of a write asks for, if it is a command. -/
def requestedBy (buf : UserMemory) (count : Nat) : Option Bool :=
  (copyFromUser buf count).bind (fun kbuf => requestedSetting (strim kbuf))

/-- The return codes of the two `set_memory_*` calls, in the order of the operations of
`safety_mem_set_protection`: they follow the mutex and the monitor's range.
-/
def settingChoices (errs : Alias → Int) : List Choice :=
  [{}, {}, { err := errs .direct }, { err := errs .vmalloc }]

/-- Acceptance is reported only for a command that took effect, and everything else is refused
without an effect.
-/
def ReportsTruly (requested : Option Bool) (count : Nat) (k : State) (ret : Int) (k' : State)
    : Prop :=
  (ret = count → ∃ setting, requested = some setting ∧ k'.ctxProtected = setting)
  ∧ (requested = none → ret < 0 ∧ k' = k)

theorem ReportsTruly.refused {requested : Option Bool} {count : Nat} {k : State} {code : Int}
    (negative : code < 0)
    : ReportsTruly requested count k code k :=
  ⟨fun accepted => by omega, fun _ => ⟨negative, rfl⟩⟩

/-- A text that is no command is accepted all the same. -/
theorem not_reportsTruly_unknown (count : Nat) (k k' : State)
    : ¬ ReportsTruly none count k count k' := by
  intro h
  have negative := (h.2 rfl).1
  omega

theorem reportsTruly_accepted_iff {setting : Bool} {count : Nat} {k k' : State}
    : ReportsTruly (some setting) count k count k' ↔ k'.ctxProtected = setting := by
  constructor
  · intro h
    obtain ⟨_, same, took⟩ := h.1 rfl
    exact took.trans (Option.some.inj same).symm
  · intro took
    exact ⟨fun _ => ⟨setting, rfl, took⟩, fun unknown => by cases unknown⟩

section Write

variable (page : SafetyPage) (tid : Nat) (errs : Alias → Int)

/-- A write run alone. -/
def writeAlone (buf : UserMemory) (count : Nat) (k : State) : Outcome Int State :=
  (safetyMemProcWrite page buf count).runAlone (exec page tid) (settingChoices errs) k

variable {buf : UserMemory} {count : Nat}

theorem writeAlone_refused (k : State)
    (h : count ≥ demoCommandBufferSize ∨ copyFromUser buf count = none)
    : ∃ code, code < 0 ∧ writeAlone page tid errs buf count k = .done code k := by
  unfold writeAlone safetyMemProcWrite
  by_cases long : count ≥ demoCommandBufferSize
  · rw [if_pos long]
    exact ⟨-eINVAL, by decide, rfl⟩
  · rw [if_neg long, h.resolve_left long]
    exact ⟨-eFAULT, by decide, rfl⟩

/-- A write that is read sets the protection as it asks for, or does nothing; it is accepted
in any case.
-/
theorem writeAlone_read {k : State} {kbuf : Bytes} (short : count < demoCommandBufferSize)
    (copied : copyFromUser buf count = some kbuf)
    : writeAlone page tid errs buf count k
      = match requestedSetting (strim kbuf) with
        | none => .done count k
        | some setting =>
            ((safetyMemSetProtection page setting).bind
              (fun _ => .ret (count : Int))).runAlone (exec page tid) (settingChoices errs) k := by
  unfold writeAlone safetyMemProcWrite requestedSetting
  rw [if_neg (by omega), copied]
  dsimp only
  split
  · rfl
  · split <;> rfl

theorem writeAlone_waits {k : State} {setting : Bool} (short : count < demoCommandBufferSize)
    (requested : requestedBy buf count = some setting) (held : k.safetyMutex ≠ none)
    : writeAlone page tid errs buf count k = .wait := by
  obtain ⟨kbuf, copied, asked⟩ := Option.bind_eq_some_iff.mp requested
  rw [writeAlone_read page tid errs short copied, asked]
  cases setting with
  | false => simp [safetyMemSetProtection_false, Prog.runAlone, exec, held]
  | true => simp [safetyMemSetProtection_true, Prog.runAlone, exec, held]

/-- A command from a free mutex is accepted, and the flag tells what it has done. -/
theorem writeAlone_sets {k : State} {setting : Bool} (isPage : k.vmalloc.IsPage)
    (short : count < demoCommandBufferSize)
    (requested : requestedBy buf count = some setting) (free : k.safetyMutex = none)
    : ∃ k', writeAlone page tid errs buf count k = .done count k'
        ∧ k'.ctxProtected = (setting && (page.hasVmalloc && errs .vmalloc == 0)) := by
  obtain ⟨kbuf, copied, asked⟩ := Option.bind_eq_some_iff.mp requested
  obtain ⟨errVirt, errVmalloc, k', ran, done, code⟩ :=
    @safetyMemSetProtection_runAlone page k tid setting (settingChoices errs) free isPage
  refine ⟨k', ?_, ?_⟩
  · rw [writeAlone_read page tid errs short copied, asked]
    dsimp only
    rw [Prog.runAlone_bind_ret, ran]
  · rw [done.flag]
    cases exists_ : page.hasVmalloc with
    | false => rfl
    | true =>
        rw [code exists_]
        rfl

end Write

/-- A write returns unless it has to wait for the mutex. What it reports is true unless it is
read and then no command, or enables a protection that does not come into force.
-/
theorem safetyMemProcWrite_reports_iff (page : SafetyPage) (tid : Nat) (errs : Alias → Int)
    (buf : UserMemory) (count : Nat) (k : State) (isPage : k.vmalloc.IsPage)
    : (k.safetyMutex = none → ∃ ret k', writeAlone page tid errs buf count k = .done ret k')
      ∧ ((∀ ret k', writeAlone page tid errs buf count k = .done ret k'
            → ReportsTruly (requestedBy buf count) count k ret k')
        ↔ count ≥ demoCommandBufferSize ∨ copyFromUser buf count = none
          ∨ requestedBy buf count = some false
          ∨ requestedBy buf count = some true
            ∧ (k.safetyMutex ≠ none ∨ page.hasVmalloc = true ∧ errs .vmalloc = 0)) := by
  by_cases refused : count ≥ demoCommandBufferSize ∨ copyFromUser buf count = none
  · obtain ⟨code, negative, ran⟩ := writeAlone_refused page tid errs k refused
    refine ⟨fun _ => ⟨code, k, ran⟩, fun _ => ?_, fun _ ret k' returned => ?_⟩
    · rcases refused with long | faulted
      · exact .inl long
      · exact .inr (.inl faulted)
    · rw [ran] at returned
      cases returned
      exact .refused negative
  · obtain ⟨short, copied⟩ := not_or.mp refused
    have short : count < demoCommandBufferSize := by omega
    obtain ⟨kbuf, copied⟩ := Option.ne_none_iff_exists'.mp copied
    cases asked : requestedBy buf count with
    | none =>
        have unknown : requestedSetting (strim kbuf) = none := by
          rw [requestedBy, copied] at asked
          exact asked
        have ran : writeAlone page tid errs buf count k = .done count k := by
          rw [writeAlone_read page tid errs short copied, unknown]
        refine ⟨fun _ => ⟨count, k, ran⟩, fun truly => ?_, fun h => ?_⟩
        · exact absurd (truly _ _ ran) (not_reportsTruly_unknown count k k)
        · simp [copied, Nat.not_le.mpr short] at h
    | some setting =>
        by_cases held : k.safetyMutex = none
        · obtain ⟨after, ran, flag⟩ := writeAlone_sets page tid errs isPage short asked held
          refine ⟨fun _ => ⟨count, after, ran⟩, fun truly => ?_, fun h ret k' returned => ?_⟩
          · have took := reportsTruly_accepted_iff.mp (truly _ _ ran)
            rw [flag] at took
            cases setting with
            | false => exact .inr (.inr (.inl rfl))
            | true => exact .inr (.inr (.inr ⟨rfl, .inr (by simpa using took)⟩))
          · rw [ran] at returned
            cases returned
            refine reportsTruly_accepted_iff.mpr (flag.trans ?_)
            cases setting with
            | false => rfl
            | true => simpa [copied, Nat.not_le.mpr short, held] using h
        · have waits := writeAlone_waits page tid errs short asked held
          refine ⟨fun free => absurd free held, fun _ => ?_, fun _ ret k' returned => ?_⟩
          · cases setting with
            | false => exact .inr (.inr (.inl rfl))
            | true => exact .inr (.inr (.inr ⟨rfl, .inl held⟩))
          · rw [waits] at returned
            cases returned

/-- A buffer that holds a text and nothing else that can be read. -/
def textMemory (text : String) : UserMemory := fun index => (utf8 text)[index]?

/-- Enabling the protection of a page whose `vmap` alias can be changed. -/
theorem safetyMemProcWrite_reports_protect
    : (freshlyLoaded (samplePage true)).vmalloc.IsPage
      ∧ ∀ ret k',
          writeAlone (samplePage true) 0 (fun _ => 0) (textMemory "protect\n") 8
              (freshlyLoaded (samplePage true))
            = .done ret k'
          → ReportsTruly (requestedBy (textMemory "protect\n") 8) 8
              (freshlyLoaded (samplePage true)) ret k' :=
  ⟨(samplePage true).vmalloc_page,
    (safetyMemProcWrite_reports_iff (samplePage true) 0 (fun _ => 0) (textMemory "protect\n") 8
      (freshlyLoaded (samplePage true)) (samplePage true).vmalloc_page).2.mpr
      (.inr (.inr (.inr ⟨by decide, .inr ⟨rfl, rfl⟩⟩)))⟩

/-- An unknown command is accepted without an effect, and so is a command whose `set_memory_ro`
fails.
-/
theorem safetyMemProcWrite_accepts_without_effect
    : ¬ (∀ ret k',
          writeAlone (samplePage true) 0 (fun _ => 0) (textMemory "10") 2
              (freshlyLoaded (samplePage true))
            = .done ret k'
          → ReportsTruly (requestedBy (textMemory "10") 2) 2
              (freshlyLoaded (samplePage true)) ret k')
      ∧ ¬ (∀ ret k',
          writeAlone (samplePage true) 0 (fun _ => -22) (textMemory "protect") 7
              (freshlyLoaded (samplePage true))
            = .done ret k'
          → ReportsTruly (requestedBy (textMemory "protect") 7) 7
              (freshlyLoaded (samplePage true)) ret k') := by
  constructor
  · intro truly
    have unknown : requestedBy (textMemory "10") 2 = none := by decide
    have copied : copyFromUser (textMemory "10") 2 = some (utf8 "10") := by decide
    have noCommand : requestedSetting (strim (utf8 "10")) = none := by decide
    have ran := writeAlone_read (samplePage true) 0 (fun _ => 0)
      (k := freshlyLoaded (samplePage true)) (by decide) copied
    rw [noCommand] at ran
    have reported := truly _ _ ran
    rw [unknown] at reported
    exact not_reportsTruly_unknown 2 _ _ reported
  · intro truly
    have asked : requestedBy (textMemory "protect") 7 = some true := by decide
    obtain ⟨k', ran, flag⟩ := writeAlone_sets (samplePage true) 0 (fun _ => -22)
      (k := freshlyLoaded (samplePage true)) (samplePage true).vmalloc_page (by decide) asked rfl
    have reported := truly _ _ ran
    rw [asked] at reported
    have took := reportsTruly_accepted_iff.mp reported
    rw [flag] at took
    exact absurd took (by decide)

end SafetyIsolation.Protection
