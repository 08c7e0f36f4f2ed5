import SafetyIsolation.Monitor.Display

/-! `renderer.cpp`: the text of one dashboard frame. -/

namespace SafetyIsolation.Monitor

open SafetyIsolation.Text

def kMinCols : Nat := 40
def kMinRows : Nat := 12
def kMinSideW : Nat := 18
def kLeftPanelRatioNumerator : Nat := 2
def kPanelRatioDenominator : Nat := 5
def kPanelBordersWidth : Nat := 3
def kDashboardFrameRows : Nat := 4

/-- How far a character reaches, by its lead byte. -/
def charLength (c : UInt8) : Nat :=
  if c &&& 0xE0 = 0xC0 then 2
  else if c &&& 0xF0 = 0xE0 then 3
  else if c &&& 0xF8 = 0xF0 then 4
  else 1

/-- The loop of `visual_len`, with the bytes of the current character still to be passed. -/
def visualLenFrom : (passing : Nat) → Bytes → Nat
  | _, [] => 0
  | 0, c :: rest => visualLenFrom (charLength c - 1) rest + 1
  | passing + 1, _ :: rest => visualLenFrom passing rest

/-- `visual_len`. -/
def visualLen (s : Bytes) : Nat := visualLenFrom 0 s

/-- `make_hline`. -/
def makeHline (fill : Bytes) (count : Nat) : Bytes := (List.replicate count fill).flatten

/-- The text up to the index at which the second loop of `pad_line` stops, with the characters
that still fit and the bytes of the current one still to be passed.
-/
def truncateFrom : (left : Nat) → (passing : Nat) → Bytes → Bytes
  | _, _, [] => []
  | left, passing + 1, c :: rest => c :: truncateFrom left passing rest
  | 0, 0, _ :: _ => []
  | left + 1, 0, c :: rest => c :: truncateFrom left (charLength c - 1) rest

/-- `pad_line`. -/
def padLine (text : Bytes) (targetWidth : Nat) : Bytes :=
  let vlen := visualLen text
  if vlen ≥ targetWidth then truncateFrom targetWidth 0 text
  else text ++ List.replicate (targetWidth - vlen) 32

structure EventEntry where
  timestamp : Bytes := []
  source : Bytes := []
  message : Bytes := []
  isWarning : Bool := false
  isError : Bool := false
  deriving DecidableEq

/-- `DisplayState` with its event list. -/
structure MonitorState extends DisplayState where
  events : List EventEntry := []

structure TerminalSize where
  cols : UInt16 := 80
  rows : UInt16 := 24

structure SnapshotView where
  vmallocValue : UInt32
  physValue : UInt32
  mappingEntry : UInt64
  writable : Bool
  ctxProtected : Bool
  smmuActive : Bool
  mappingLevel : Bytes
  status : Bytes
  deriving DecidableEq

/-- `snapshot_view`, on a snapshot that does not change meanwhile. -/
def SnapshotView.of (snapshot : ComparisonSnapshot) : SnapshotView where
  vmallocValue := snapshot.valVmalloc
  physValue := snapshot.valPhys
  mappingEntry := snapshot.mappingEntry
  writable := snapshot.mappingWritable
  ctxProtected := snapshot.ctxProtected
  smmuActive := snapshot.smmuActive
  mappingLevel := snapshot.mappingLevel
  status := snapshot.status

/-- What `render_normal` has read from the state when it has drawn a frame. -/
structure Frame where
  before : SnapshotView
  after : SnapshotView
  events : List EventEntry
  scenarioInfo : ScenarioInfo

/-- The frame of a state that does not change meanwhile. -/
def Frame.of (state : MonitorState) : Frame where
  before := .of state.before
  after := .of state.after
  events := state.events
  scenarioInfo := state.scenarioInfo

namespace TerminalSize

variable (size : TerminalSize)

/-- The number of columns that are drawn. -/
def frameCols : Nat := if size.cols.toNat < kMinCols then kMinCols else size.cols.toNat

/-- The number of rows that are drawn. -/
def frameRows : Nat := if size.rows.toNat < kMinRows then kMinRows else size.rows.toNat

def panelWidth : Nat := size.frameCols - kPanelBordersWidth

/-- `std::clamp`. -/
def clamp (v lo hi : Nat) : Nat := if v < lo then lo else if hi < v then hi else v

def leftW : Nat :=
  clamp (size.panelWidth * kLeftPanelRatioNumerator / kPanelRatioDenominator) kMinSideW
    (size.panelWidth - kMinSideW)

def rightW : Nat := size.panelWidth - size.leftW

def mainH : Nat := size.frameRows - kDashboardFrameRows

def totalInnerW : Nat := size.leftW + size.rightW + 1

end TerminalSize

def leftTitle : Bytes := utf8 " SAFETY MEMORY STATE "

def rightTitle : Bytes := utf8 " KERNEL EVENT STREAM "

/-- A title in the middle of a horizontal line. -/
def titled (title : Bytes) (width : Nat) : Bytes :=
  let fill := if width > visualLen title then width - visualLen title else 0
  makeHline (utf8 "─") (fill / 2) ++ title ++ makeHline (utf8 "─") (fill - fill / 2)

def topHdr (size : TerminalSize) : Bytes :=
  utf8 "┌" ++ titled leftTitle size.leftW ++ utf8 "┬" ++ titled rightTitle size.rightW
    ++ utf8 "┐"

def onOff (flag : Bool) : Bytes := if flag then utf8 "ON" else utf8 "OFF"

def valuesText (view : SnapshotView) : Bytes :=
  utf8 " val: VM 0x" ++ hexFixed upperA 8 view.vmallocValue.toNat
    ++ utf8 " / PHYS 0x" ++ hexFixed upperA 8 view.physValue.toNat

def pageTableText (view : SnapshotView) : Bytes :=
  utf8 " attack PT: " ++ view.mappingLevel ++ utf8 " "
    ++ (if view.writable then utf8 "RW" else utf8 "RO")
    ++ utf8 " 0x" ++ hexFixed upperA 16 view.mappingEntry.toNat

def protectionText (view : SnapshotView) : Bytes :=
  utf8 " CTX: " ++ onOff view.ctxProtected ++ utf8 "  SMMU: " ++ onOff view.smmuActive
    ++ utf8 "  " ++ view.status

/-- The rows of `SnapshotRow`; the others are blank. -/
def leftText (frame : Frame) : (row : Nat) → Bytes
  | 0 => utf8 " BEFORE ACTION"
  | 1 => valuesText frame.before
  | 2 => pageTableText frame.before
  | 3 => protectionText frame.before
  | 4 => utf8 " AFTER ACTION"
  | 5 => valuesText frame.after
  | 6 => pageTableText frame.after
  | 7 => protectionText frame.after
  | _ => []

def eventText (ev : EventEntry) : Bytes :=
  utf8 " [" ++ ev.timestamp ++ utf8 "] " ++ ev.source ++ utf8 ": " ++ ev.message

/-- The event of a row, counted from the back of the list. -/
def rightText (events : List EventEntry) (row : Nat) : Bytes :=
  if row < events.length then
    match events[events.length - 1 - row]? with
    | some ev => eventText ev
    | none => []
  else []

def bodyRow (frame : Frame) (size : TerminalSize) (row : Nat) : Bytes :=
  utf8 "│" ++ padLine (leftText frame row) size.leftW
    ++ utf8 "│" ++ padLine (rightText frame.events row) size.rightW ++ utf8 "│"

def divider (size : TerminalSize) : Bytes :=
  utf8 "├" ++ makeHline (utf8 "─") size.leftW ++ utf8 "┴" ++ makeHline (utf8 "─") size.rightW
    ++ utf8 "┤"

def scenarioBar (info : ScenarioInfo) : Bytes :=
  utf8 " Active: " ++ info.id ++ utf8 " — " ++ info.title

def statusBar (frame : Frame) (size : TerminalSize) : Bytes :=
  utf8 "│" ++ padLine (scenarioBar frame.scenarioInfo) size.totalInnerW ++ utf8 "│"

def bottomBorder (size : TerminalSize) : Bytes :=
  utf8 "└" ++ makeHline (utf8 "─") size.totalInnerW ++ utf8 "┘"

/-- The lines of a frame from top to bottom. -/
def frameLines (frame : Frame) (size : TerminalSize) : List Bytes :=
  topHdr size :: (List.range size.mainH).map (bodyRow frame size)
    ++ [divider size, statusBar frame size, bottomBorder size]

/-- `Renderer::render_normal`, once it has read the state. -/
def renderNormal (frame : Frame) (size : TerminalSize) : Bytes :=
  (frameLines frame size).flatMap (· ++ [newline])

/-- The cursor-home sequence. -/
def cursorHome : Bytes := utf8 "\x1b[H"

/-- `Renderer::render`, on a state that does not change meanwhile. -/
def render (state : MonitorState) (size : TerminalSize) : Bytes :=
  cursorHome ++ renderNormal (.of state) size

end SafetyIsolation.Monitor
