import SafetyIsolation.Harness.ModuleLoader
import SafetyIsolation.Text.Search

/-! The five scenarios: what each loads, triggers and reads, and how it judges the result.
Sleeping and printing leave nothing a later step could see.
-/

namespace SafetyIsolation.Harness

open SafetyIsolation.Interleaving SafetyIsolation.Text

inductive ScenarioStatus where
  | passed
  | failed
  | skipped
  | error
  deriving DecidableEq

structure ScenarioLatencyMetrics where
  latencyNs : UInt64 := 0
  detectionLatencyNs : UInt64 := 0
  tlbFlushLatencyNs : UInt64 := 0
  deriving DecidableEq

structure ScenarioResult where
  status : ScenarioStatus
  metrics : ScenarioLatencyMetrics
  errorMessage : String
  deriving DecidableEq

-----------------------------------------------------------------------------------------
-- Constants
-----------------------------------------------------------------------------------------

namespace Demo

def kSafetySentinelStatus : Bytes := utf8 "0x5AFE1234"
def kCorruptSentinelStatus : Bytes := utf8 "0xDEADDEAD"
def kLinearBypassStatus : Bytes := utf8 "0xBAD30003"
def kIllustrativeTlbFlushLatencyNs : UInt64 := 1500
def kVmallocAttackCommand : Bytes := utf8 "1"
def kLinearMapAttackCommand : Bytes := utf8 "3"
def kEnableProtectionCommand : Bytes := utf8 "protect"
def kRogueWriteModuleParams : String := "attack_mode=0 interval_ms=100"
def kRogueMetadataModuleParams : String := "attack_mode=1 interval_ms=100"
def kRogueStatusPath : Path := "/proc/rogue_thread_status"
def kMetadataAttackCountField : Bytes := utf8 "metadata_attack_count:"
def kProtectionEnabledStatus : Bytes := utf8 "ctx_protected: 1"
def kVmallocReadOnlyStatus : Bytes := utf8 "mapping_writable_vmalloc: 0"

def safetyMemStatus : Path := "/proc/safety_mem_status"
def badDriver : Path := "/proc/bad_driver_ts"
def smmuGuardLog : Path := "/proc/smmu_guard_log"
def ctxMonitorLog : Path := "/proc/ctx_monitor_log"
def rogueThread : Path := "modules/rogue_thread.ko"

end Demo

-----------------------------------------------------------------------------------------
-- Helpers
-----------------------------------------------------------------------------------------

def ReadOutcome.result (path : Path) : ReadOutcome → Except String Bytes
  | .content text => .ok text
  | .missing => .error ("File does not exist: " ++ path)
  | .unopened => .error ("Failed to open file: " ++ path)
  | .bad => .error ("I/O error reading file: " ++ path)

/-- `ProcReader::read`. -/
def readProc (point : ReadPoint) (path : Path) : Code (Except String Bytes) := do
  return (← sys (.readProc point path)).result path

/-- The file was read and one of the needles occurs in it. -/
def mentions (content : Except String Bytes) (needles : List Bytes) : Bool :=
  match content with
  | .ok text => needles.any (contains text)
  | .error _ => false

/-- Load one module after the other; the first failure is the result. -/
def loadEach (id : LoaderId) : List Path → Code (Except String Unit)
  | [] => return .ok ()
  | path :: rest => do
      match ← ModuleLoader.load id path "" with
      | .error message => return .error message
      | .ok () => loadEach id rest

/-- `std::from_chars` on a decimal number that has to fill the whole text. -/
def fromDecimal (text : Bytes) : Option UInt64 :=
  if !text.isEmpty && text.all (fun byte => 48 ≤ byte.toNat && byte.toNat ≤ 57) then
    let value := text.foldl (fun value byte => value * 10 + (byte.toNat - 48)) 0
    if value < UInt64.size then some value.toUInt64 else none
  else none

/-- `parse_counter`. -/
def parseCounter (status field : Bytes) : Option UInt64 :=
  match afterFirst field status with
  | none => none
  | some rest =>
      match rest.dropWhile (fun byte => byte = 32 ∨ byte = 9) with
      | [] => none
      | value => fromDecimal (value.takeWhile (fun byte => byte ≠ 13 ∧ byte ≠ 10))

-----------------------------------------------------------------------------------------
-- Scenarios
-----------------------------------------------------------------------------------------

/-- What the concept `Scenario` asks for, as code on the scenario's own loader. -/
structure Scenario where
  name : String
  setup : LoaderId → Code (Except String Unit)
  run : LoaderId → Code ScenarioResult
  teardown : LoaderId → Code Unit

/-- `setup` of B and G. -/
def mutexModules : List Path :=
  ["modules/ctx_monitor.ko", "modules/safety_mem.ko", "modules/mutex_threads.ko"]

namespace ScenarioB

def run (id : LoaderId) : Code ScenarioResult := do
  match ← ModuleLoader.load id Demo.rogueThread Demo.kRogueWriteModuleParams with
  | .error message => return ⟨.error, {}, message⟩
  | .ok () =>
      let content ← readProc (.action 0) Demo.safetyMemStatus
      let latency ← sys .elapsedNs
      if mentions content [Demo.kCorruptSentinelStatus, utf8 "CORRUPTED"] then
        return ⟨.passed, ⟨latency, latency, 0⟩, ""⟩
      else return ⟨.failed, ⟨latency, 0, 0⟩, "Rogue write failed to corrupt memory"⟩

end ScenarioB

def scenarioB : Scenario where
  name := "Scenario B: Mutex + Rogue Thread"
  setup := (loadEach · mutexModules)
  run := ScenarioB.run
  teardown := ModuleLoader.unloadAll

namespace ScenarioD

def modules : List Path :=
  ["modules/ctx_monitor.ko", "modules/safety_mem.ko", "modules/mutex_threads.ko",
    "modules/bad_driver.ko"]

def setup (id : LoaderId) : Code (Except String Unit) := do
  match ← loadEach id modules with
  | .error message => return .error message
  | .ok () =>
      sys (.writeProc Demo.safetyMemStatus Demo.kEnableProtectionCommand)
      return .ok ()

/-- The last test asks for a text in which the sentinel is missing. -/
def run (_ : LoaderId) : Code ScenarioResult := do
  sys (.writeProc Demo.badDriver Demo.kLinearMapAttackCommand)
  let content ← readProc (.action 0) Demo.safetyMemStatus
  let latency ← sys .elapsedNs
  let intact := utf8 "value_via_phys: " ++ Demo.kSafetySentinelStatus
  if mentions content [Demo.kLinearBypassStatus, utf8 "CORRUPTED"]
      || (content.isOk && !mentions content [intact]) then
    return ⟨.passed, ⟨latency, latency, 0⟩, ""⟩
  else
    return ⟨.failed, ⟨latency, 0, 0⟩,
      "Linear map bypass did not display expected value divergence"⟩

end ScenarioD

def scenarioD : Scenario where
  name := "Scenario D: DMA Linear Map Bypass"
  setup := ScenarioD.setup
  run := ScenarioD.run
  teardown := ModuleLoader.unloadAll

namespace ScenarioE

def modules : List Path :=
  ["modules/ctx_monitor.ko", "modules/safety_mem.ko", "modules/smmu_guard.ko",
    "modules/bad_driver.ko"]

def run (_ : LoaderId) : Code ScenarioResult := do
  sys (.writeProc Demo.badDriver Demo.kLinearMapAttackCommand)
  let content ← readProc (.action 0) Demo.safetyMemStatus
  let smmuLog ← readProc (.action 0) Demo.smmuGuardLog
  let latency ← sys .elapsedNs
  let memoryCorrupted := mentions content [Demo.kLinearBypassStatus, utf8 "CORRUPTED"]
  let smmuSilent := !mentions smmuLog [utf8 "FAULT"]
  if memoryCorrupted && smmuSilent then
    return ⟨.passed, ⟨latency, latency, 0⟩,
      "CPU write via linear map SUCCEEDED despite SMMU being active. "
        ++ "SMMU only guards bus masters."⟩
  if !memoryCorrupted then
    return ⟨.failed, ⟨latency, 0, 0⟩,
      "Expected memory corruption via CPU linear map write, but memory was not corrupted"⟩
  return ⟨.failed, ⟨latency, 0, 0⟩,
    "SMMU unexpectedly fired a fault on a CPU write — this should not happen"⟩

end ScenarioE

def scenarioE : Scenario where
  name := "Scenario E: SMMU Active — CPU Write Bypasses SMMU"
  setup := (loadEach · ScenarioE.modules)
  run := ScenarioE.run
  teardown := ModuleLoader.unloadAll

namespace ScenarioF

def modules : List Path :=
  ["modules/ctx_monitor.ko", "modules/safety_mem.ko", "modules/smmu_guard.ko",
    "modules/mutex_threads.ko", "modules/bad_driver.ko"]

/-- The check of `setup` on the status it has read. -/
def targetMappingIsRo (status : Except String Bytes) : Bool :=
  mentions status [Demo.kProtectionEnabledStatus]
    && mentions status [Demo.kVmallocReadOnlyStatus]

def setup (id : LoaderId) : Code (Except String Unit) := do
  match ← loadEach id modules with
  | .error message => return .error message
  | .ok () =>
      sys (.writeProc Demo.safetyMemStatus Demo.kEnableProtectionCommand)
      let status ← readProc .setup Demo.safetyMemStatus
      if targetMappingIsRo status then return .ok ()
      else
        return .error
          "Scenario F setup aborted: vmalloc attack target was not verified read-only"

def run (_ : LoaderId) : Code ScenarioResult := do
  sys (.writeProc Demo.badDriver Demo.kVmallocAttackCommand)
  let monLog ← readProc (.action 0) Demo.ctxMonitorLog
  let smmuLog ← readProc (.action 0) Demo.smmuGuardLog
  let status ← readProc (.action 0) Demo.safetyMemStatus
  let latency ← sys .elapsedNs
  if mentions status [utf8 "value_via_vmalloc: " ++ Demo.kSafetySentinelStatus]
      && mentions status [utf8 "value_via_phys: " ++ Demo.kSafetySentinelStatus] then
    let faults := [utf8 "FAULT", utf8 "BLOCKED"]
    let evidence :=
      if mentions monLog faults || mentions smmuLog faults then
        "Attack blocked and recorded by a protection monitor"
      else "Attack target remained read-only; safety value was preserved"
    return ⟨.passed, ⟨latency, latency, Demo.kIllustrativeTlbFlushLatencyNs⟩, evidence⟩
  return ⟨.failed, ⟨latency, 0, 0⟩,
    "Safety value changed after a write to the verified read-only attack target"⟩

end ScenarioF

def scenarioF : Scenario where
  name := "Scenario F: Full CTX + SMMU Isolation"
  setup := ScenarioF.setup
  run := ScenarioF.run
  teardown := ModuleLoader.unloadAll

namespace ScenarioG

/-- The polling loop, for the number of turns that fit before the deadline: the observed
count, or the last read error.
-/
def poll (turn : Nat) : (left : Nat) → (lastReadError : String) → Code (Except String UInt64)
  | 0, lastReadError => return .error lastReadError
  | left + 1, lastReadError => do
      match ← readProc (.action turn) Demo.kRogueStatusPath with
      | .ok status =>
          match parseCounter status Demo.kMetadataAttackCountField with
          | some count =>
              if count > 0 then return .ok count
              else poll (turn + 1) left lastReadError
          | none => poll (turn + 1) left lastReadError
      | .error message => poll (turn + 1) left message

def run (id : LoaderId) : Code ScenarioResult := do
  match ← ModuleLoader.load id Demo.rogueThread Demo.kRogueMetadataModuleParams with
  | .error message => return ⟨.error, {}, message⟩
  | .ok () =>
      match ← poll 0 (← sys .turnsBeforeDeadline) "" with
      | .ok attackCount =>
          let latency ← sys .elapsedNs
          return ⟨.passed, ⟨latency, latency, 0⟩,
            "Observed " ++ toString attackCount ++ " mutex-owner metadata corruption(s) via "
              ++ Demo.kRogueStatusPath⟩
      | .error lastReadError =>
          let latency ← sys .elapsedNs
          return ⟨.failed, ⟨latency, 0, 0⟩,
            if lastReadError = "" then
              "No mutex metadata corruption was observed before the timeout"
            else "Could not verify mutex metadata corruption: " ++ lastReadError⟩

end ScenarioG

def scenarioG : Scenario where
  name := "Scenario G: Mutex Metadata Attack"
  setup := (loadEach · mutexModules)
  run := ScenarioG.run
  teardown := ModuleLoader.unloadAll

end SafetyIsolation.Harness
