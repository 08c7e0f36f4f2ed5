import SafetyIsolation.Text.Hex
import SafetyIsolation.Text.Lines

/-! The monitor's display state and its two decoders, from `monitor/main.cpp`. -/

namespace SafetyIsolation.Monitor

open SafetyIsolation.Text

structure ScenarioInfo where
  id : Bytes := utf8 "None"
  title : Bytes := utf8 "Waiting for a scenario"
  deriving DecidableEq

structure ComparisonSnapshot where
  valVmalloc : UInt32 := 0
  valPhys : UInt32 := 0
  mappingEntry : UInt64 := 0
  mappingWritable : Bool := false
  ctxProtected : Bool := false
  smmuActive : Bool := false
  mappingLevel : Bytes := utf8 "--"
  status : Bytes := utf8 "--"
  deriving DecidableEq

structure DisplayState where
  valVmalloc : UInt32 := 0x5AFE1234
  valPhys : UInt32 := 0x5AFE1234
  virtAddr : UInt64 := 0
  physAddr : UInt64 := 0
  mappingEntryBefore : UInt64 := 0
  mappingEntryCurrent : UInt64 := 0
  ctxProtected : Bool := false
  smmuActive : Bool := false
  mappingWritableBefore : Bool := false
  mappingWritableCurrent : Bool := false
  before : ComparisonSnapshot := {}
  after : ComparisonSnapshot := {}
  mutexOwner : Bytes := utf8 "none"
  statusStr : Bytes := utf8 "PROTECTED_RO"
  mappingLevelBefore : Bytes := utf8 "unknown"
  mappingLevelCurrent : Bytes := utf8 "unknown"
  scenarioInfo : ScenarioInfo := {}
  deriving DecidableEq

/-- The characters ` \t\r\n`. -/
def isBlank (byte : UInt8) : Bool := byte = 32 || byte = 9 || byte = 13 || byte = 10

def trim (s : Bytes) : Bytes := ((s.dropWhile isBlank).reverse.dropWhile isBlank).reverse

/-- Without the prefix `0x` or `0X`. -/
def stripHexPrefix (s : Bytes) : Bytes :=
  if (utf8 "0x").isPrefixOf s || (utf8 "0X").isPrefixOf s then s.drop 2 else s

def parseHex64 (s : Bytes) : UInt64 :=
  match fromHex UInt64.size (stripHexPrefix s) with
  | some value => value.toUInt64
  | none => 0

def parseHex32 (s : Bytes) : UInt32 :=
  match fromHex UInt32.size (stripHexPrefix s) with
  | some value => value.toUInt32
  | none => 0

/-- The values that switch a flag on. -/
def isOn (value : Bytes) : Bool := value = utf8 "1" || value = utf8 "true" || value = utf8 "ON"

/-- `reset_snapshot`. -/
def resetSnapshot : ComparisonSnapshot where
  valVmalloc := 0
  valPhys := 0
  mappingEntry := 0
  mappingWritable := false
  ctxProtected := false
  smmuActive := false
  mappingLevel := utf8 "--"
  status := utf8 "--"

/-- `update_snapshot`. -/
def updateSnapshot (snapshot : ComparisonSnapshot) (key value : Bytes) : ComparisonSnapshot :=
  if key = utf8 "value_via_vmalloc" ∨ key = utf8 "val_vmalloc" then
    { snapshot with valVmalloc := parseHex32 value }
  else if key = utf8 "value_via_phys" ∨ key = utf8 "val_phys" then
    { snapshot with valPhys := parseHex32 value }
  else if key = utf8 "mapping_entry_current" ∨ key = utf8 "mapping_entry_vmalloc" then
    { snapshot with mappingEntry := parseHex64 value }
  else if key = utf8 "mapping_writable_current" ∨ key = utf8 "mapping_writable_vmalloc" then
    { snapshot with mappingWritable := value = utf8 "1" }
  else if key = utf8 "ctx_protected" then { snapshot with ctxProtected := isOn value }
  else if key = utf8 "smmu_active" then { snapshot with smmuActive := isOn value }
  else if key = utf8 "mapping_level_current" ∨ key = utf8 "mapping_level_vmalloc" then
    { snapshot with mappingLevel := value }
  else if key = utf8 "status" then { snapshot with status := value }
  else snapshot

/-- The local variables of `sync_scenario_state` and the snapshots it works on. -/
structure SyncState where
  before : ComparisonSnapshot
  after : ComparisonSnapshot
  scId : Bytes := []
  scTitle : Bytes := []
  phase : Bytes := []
  deriving DecidableEq

/-- One turn of the loop over the lines of the state file. -/
def syncLine (state : SyncState) (line : Bytes) : SyncState :=
  match cut 61 line with
  | none => state
  | some (rawKey, rawValue) =>
      let key := trim rawKey
      let value := trim rawValue
      if key = utf8 "SCENARIO_ID" then { state with scId := value }
      else if key = utf8 "TITLE" then { state with scTitle := value }
      else if key = utf8 "PHASE" then { state with phase := value }
      else if (utf8 "BEFORE_").isPrefixOf key then
        { state with before := updateSnapshot state.before (key.drop 7) value }
      else if (utf8 "AFTER_").isPrefixOf key then
        { state with after := updateSnapshot state.after (key.drop 6) value }
      else state

/-- What `sync_scenario_state` does after the loop. -/
def syncFinish (display : DisplayState) (state : SyncState) : DisplayState :=
  let reset := state.phase = utf8 "SETUP"
  { display with
    before := if reset then resetSnapshot else state.before
    after := if reset then resetSnapshot else state.after
    scenarioInfo :=
      if state.scId = [] then display.scenarioInfo
      else {
        id := state.scId
        title := if state.scTitle = [] then display.scenarioInfo.title else state.scTitle
      } }

/-- `sync_scenario_state`, on the content of the state file. -/
def syncScenarioState (content : Bytes) (display : DisplayState) : DisplayState :=
  syncFinish display
    ((lines content).foldl syncLine { before := display.before, after := display.after })

/-- What the loop of `mem_poller` does for one key. -/
def pollField (display : DisplayState) (key val : Bytes) : DisplayState :=
  if key = utf8 "virt_addr" then { display with virtAddr := parseHex64 val }
  else if key = utf8 "phys_addr" then { display with physAddr := parseHex64 val }
  else if key = utf8 "mapping_entry_before" then
    { display with mappingEntryBefore := parseHex64 val }
  else if key = utf8 "mapping_entry_current" then
    { display with mappingEntryCurrent := parseHex64 val }
  else if key = utf8 "mapping_writable_before" then
    { display with mappingWritableBefore := val = utf8 "1" }
  else if key = utf8 "mapping_writable_current" then
    { display with mappingWritableCurrent := val = utf8 "1" }
  else if key = utf8 "mapping_level_before" then { display with mappingLevelBefore := val }
  else if key = utf8 "mapping_level_current" then { display with mappingLevelCurrent := val }
  else if key = utf8 "value_via_vmalloc" ∨ key = utf8 "val_vmalloc" then
    { display with valVmalloc := parseHex32 val }
  else if key = utf8 "value_via_phys" ∨ key = utf8 "val_phys" then
    { display with valPhys := parseHex32 val }
  else if key = utf8 "ctx_protected" then { display with ctxProtected := isOn val }
  else if key = utf8 "smmu_active" then { display with smmuActive := isOn val }
  else if key = utf8 "mutex_owner" then { display with mutexOwner := val }
  else if key = utf8 "status" then { display with statusStr := val }
  else display

/-- One turn of the loop of `mem_poller` over the lines of the status file. -/
def pollLine (display : DisplayState) (line : Bytes) : DisplayState :=
  match cut 58 line with
  | none => display
  | some (key, val) => pollField display (trim key) (trim val)

/-- The loop of `mem_poller` on a text it has read. -/
def pollStatus (content : Bytes) (display : DisplayState) : DisplayState :=
  (lines content).foldl pollLine display

/-- One turn of `mem_poller`, on what it finds in the status file and the state file; `none`
if the file cannot be read.
-/
def memPoll (status stateFile : Option Bytes) (display : DisplayState) : DisplayState :=
  let polled :=
    match status with
    | some content => pollStatus content display
    | none => { display with statusStr := utf8 "MODULE_NOT_LOADED" }
  match stateFile with
  | some content => syncScenarioState content polled
  | none => polled

end SafetyIsolation.Monitor
