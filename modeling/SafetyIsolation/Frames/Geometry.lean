import SafetyIsolation.Frames.Widths

/-! The geometry of a frame. Every line is a chain of borders, horizontal lines and padded
texts; only the titles of the header keep their own width.
-/

namespace SafetyIsolation.Frames

open SafetyIsolation.Text SafetyIsolation.Monitor

/-- A text that can stand in a line. -/
def Printable (text : Bytes) : Prop := WellFormed text ∧ newline ∉ text

/-- The texts of a state that a frame shows are well formed and stay in their line. -/
structure PrintableState (state : MonitorState) : Prop where
  beforeLevel : Printable state.before.mappingLevel
  beforeStatus : Printable state.before.status
  afterLevel : Printable state.after.mappingLevel
  afterStatus : Printable state.after.status
  events : ∀ ev ∈ state.events,
    Printable ev.timestamp ∧ Printable ev.source ∧ Printable ev.message
  scenarioId : Printable state.scenarioInfo.id
  scenarioTitle : Printable state.scenarioInfo.title

/-- A frame has as many lines as the terminal has rows, each as wide as the terminal has
columns, for a terminal of at least the smallest size that is drawn.
-/
def FrameGeometry (size : TerminalSize) (output : Bytes) : Prop :=
  ∃ body, output = cursorHome ++ body
    ∧ (lines body).length = max size.rows.toNat kMinRows
    ∧ ∀ line ∈ lines body, visualLen line = max size.cols.toNat kMinCols

/-- A printable text of a known width. -/
def Spans (width : Nat) (text : Bytes) : Prop := Printable text ∧ visualLen text = width

theorem Printable.append {left right : Bytes} (h : Printable left) (h' : Printable right)
    : Printable (left ++ right) :=
  ⟨h.1.append h'.1, newline_not_mem_append h.2 h'.2⟩

theorem Spans.append {width width' : Nat} {left right : Bytes} (h : Spans width left)
    (h' : Spans width' right)
    : Spans (width + width') (left ++ right) := by
  refine ⟨h.1.append h'.1, ?_⟩
  rw [visualLen_append h.1.1, h.2, h'.2]

theorem Printable.padLine {text : Bytes} (h : Printable text) (width : Nat)
    : Spans width (padLine text width) := by
  obtain ⟨wellFormed, exact⟩ := visualLen_padLine h.1 width
  exact ⟨⟨wellFormed, newline_not_mem_padLine h.2 width⟩, exact⟩

theorem spans_hline (count : Nat) : Spans count (makeHline (utf8 "─") count) := by
  have piece : utf8 "─" = String.utf8EncodeChar '─' := by decide
  have single : newline ∉ utf8 "─" := by decide
  rw [piece] at single ⊢
  obtain ⟨wellFormed, exact⟩ := visualLen_makeHline '─' count
  exact ⟨⟨wellFormed, newline_not_mem_makeHline single count⟩, exact⟩

/-- A title is never cut: the line is as wide as asked for or as wide as the title. -/
theorem Spans.titled {own : Nat} {title : Bytes} (h : Spans own title) (width : Nat)
    : Spans (max width own) (titled title width) := by
  rw [Monitor.titled, h.2]
  have parts (fill : Nat)
      : Spans (fill / 2 + own + (fill - fill / 2))
          (makeHline (utf8 "─") (fill / 2) ++ title ++ makeHline (utf8 "─") (fill - fill / 2)) :=
    ((spans_hline _).append h).append (spans_hline _)
  have total (fill : Nat) : fill / 2 + own + (fill - fill / 2) = own + fill := by omega
  by_cases wide : width > own
  · have whole := parts (width - own)
    rw [total, show own + (width - own) = max width own by omega] at whole
    rwa [if_pos wide]
  · have whole := parts 0
    rw [total, show own + 0 = max width own by omega] at whole
    rwa [if_neg wide]

theorem printable_literal {text : String} (h : newline ∉ utf8 text) : Printable (utf8 text) :=
  ⟨wellFormed_utf8 text, h⟩

theorem spans_literal {text : String} {width : Nat} (h : newline ∉ utf8 text)
    (exact : visualLen (utf8 text) = width)
    : Spans width (utf8 text) :=
  ⟨printable_literal h, exact⟩

theorem printable_hexFixed (width value : Nat) : Printable (hexFixed upperA width value) := by
  have digits := hexFixed_digits (Or.inl rfl : IsCase upperA) width value
  have ascii (byte : UInt8) (member : byte ∈ hexFixed upperA width value)
      : byte.toNat < 0x80 ∧ byte.toNat ≠ 10 := by
    have isDigit := digits byte member
    unfold hexValue at isDigit
    split at isDigit
    · omega
    split at isDigit
    · omega
    split at isDigit
    · omega
    · cases isDigit
  refine ⟨wellFormed_ascii (fun byte member => (ascii byte member).1), fun member => ?_⟩
  exact (ascii newline member).2 rfl

theorem printable_onOff (flag : Bool) : Printable (onOff flag) := by
  cases flag with
  | false => exact printable_literal (by decide)
  | true => exact printable_literal (by decide)

-----------------------------------------------------------------------------------------
-- Lines
-----------------------------------------------------------------------------------------

theorem printable_snapshotTexts {snapshot : ComparisonSnapshot}
    (level : Printable snapshot.mappingLevel) (status : Printable snapshot.status)
    : Printable (valuesText (.of snapshot)) ∧ Printable (pageTableText (.of snapshot))
      ∧ Printable (protectionText (.of snapshot)) := by
  refine ⟨?_, ?_, ?_⟩
  · rw [valuesText]
    exact (((printable_literal (by decide)).append (printable_hexFixed _ _)).append
      (printable_literal (by decide))).append (printable_hexFixed _ _)
  · have access : Printable (if snapshot.mappingWritable then utf8 "RW" else utf8 "RO") := by
      split
      · exact printable_literal (by decide)
      · exact printable_literal (by decide)
    rw [pageTableText]
    exact (((((printable_literal (by decide)).append level).append
      (printable_literal (by decide))).append access).append
      (printable_literal (by decide))).append (printable_hexFixed _ _)
  · rw [protectionText]
    exact (((((printable_literal (by decide)).append (printable_onOff _)).append
      (printable_literal (by decide))).append (printable_onOff _)).append
      (printable_literal (by decide))).append status

theorem printable_leftText {state : MonitorState} (h : PrintableState state) (row : Nat)
    : Printable (leftText (.of state) row) := by
  obtain ⟨values, pageTable, protection⟩ :=
    printable_snapshotTexts h.beforeLevel h.beforeStatus
  obtain ⟨values', pageTable', protection'⟩ :=
    printable_snapshotTexts h.afterLevel h.afterStatus
  unfold leftText
  split
  · exact printable_literal (by decide)
  · exact values
  · exact pageTable
  · exact protection
  · exact printable_literal (by decide)
  · exact values'
  · exact pageTable'
  · exact protection'
  · exact ⟨.nil, List.not_mem_nil⟩

theorem printable_rightText {state : MonitorState} (h : PrintableState state) (row : Nat)
    : Printable (rightText state.events row) := by
  have empty : Printable [] := ⟨.nil, List.not_mem_nil⟩
  unfold rightText
  split
  · split
    case h_1 ev found =>
      obtain ⟨timestamp, source, message⟩ := h.events ev (List.mem_of_getElem? found)
      rw [eventText]
      exact (((((printable_literal (by decide)).append timestamp).append
        (printable_literal (by decide))).append source).append
        (printable_literal (by decide))).append message
    case h_2 => exact empty
  · exact empty

theorem printable_scenarioBar {state : MonitorState} (h : PrintableState state)
    : Printable (scenarioBar state.scenarioInfo) := by
  rw [scenarioBar]
  exact (((printable_literal (by decide)).append h.scenarioId).append
    (printable_literal (by decide))).append h.scenarioTitle

/-- Border, left panel, border, right panel, border. -/
theorem Spans.panels {width width' : Nat} {first left middle right last : Bytes}
    (h₁ : Spans 1 first) (h₂ : Spans width left) (h₃ : Spans 1 middle)
    (h₄ : Spans width' right) (h₅ : Spans 1 last)
    : Spans (width + width' + 3) (first ++ left ++ middle ++ right ++ last) := by
  have whole := (((h₁.append h₂).append h₃).append h₄).append h₅
  rwa [show 1 + width + 1 + width' + 1 = width + width' + 3 by omega] at whole

/-- The header is the one line whose width does not come from the panels alone. -/
theorem spans_topHdr (size : TerminalSize)
    : Spans (max size.leftW 21 + max size.rightW 21 + 3) (topHdr size) := by
  have left : Spans 21 leftTitle := spans_literal (by decide) (by decide)
  have right : Spans 21 rightTitle := spans_literal (by decide) (by decide)
  exact .panels (spans_literal (by decide) (by decide)) (left.titled _)
    (spans_literal (by decide) (by decide)) (right.titled _)
    (spans_literal (by decide) (by decide))

theorem spans_bodyRow {state : MonitorState} (h : PrintableState state) (size : TerminalSize)
    (row : Nat)
    : Spans (size.leftW + size.rightW + 3) (bodyRow (.of state) size row) := by
  have border : Spans 1 (utf8 "│") := spans_literal (by decide) (by decide)
  exact .panels border ((printable_leftText h row).padLine _) border
    ((printable_rightText h row).padLine _) border

theorem spans_divider (size : TerminalSize)
    : Spans (size.leftW + size.rightW + 3) (divider size) :=
  .panels (spans_literal (by decide) (by decide)) (spans_hline _)
    (spans_literal (by decide) (by decide)) (spans_hline _)
    (spans_literal (by decide) (by decide))

/-- Border, one text over both panels, border. -/
theorem Spans.across {size : TerminalSize} {first text last : Bytes} (h : Spans 1 first)
    (inner : Spans size.totalInnerW text) (h' : Spans 1 last)
    : Spans (size.leftW + size.rightW + 3) (first ++ text ++ last) := by
  have whole := (h.append inner).append h'
  have width : 1 + size.totalInnerW + 1 = size.leftW + size.rightW + 3 := by
    rw [TerminalSize.totalInnerW]
    omega
  rwa [width] at whole

theorem spans_statusBar {state : MonitorState} (h : PrintableState state) (size : TerminalSize)
    : Spans (size.leftW + size.rightW + 3) (statusBar (.of state) size) := by
  have border : Spans 1 (utf8 "│") := spans_literal (by decide) (by decide)
  exact border.across ((printable_scenarioBar h).padLine _) border

theorem spans_bottomBorder (size : TerminalSize)
    : Spans (size.leftW + size.rightW + 3) (bottomBorder size) :=
  Spans.across (spans_literal (by decide) (by decide)) (spans_hline _)
    (spans_literal (by decide) (by decide))

/-- Every line but the header has the width of the panels and their borders. -/
theorem spans_frameLines {state : MonitorState} (h : PrintableState state)
    (size : TerminalSize) {line : Bytes}
    (member : line ∈ frameLines (.of state) size)
    : line = topHdr size ∨ Spans (size.leftW + size.rightW + 3) line := by
  rw [frameLines, List.mem_append, List.mem_cons, List.mem_map] at member
  rcases member with (isHeader | ⟨row, _, rfl⟩) | last
  · exact .inl isHeader
  · exact .inr (spans_bodyRow h size row)
  · simp only [List.mem_cons, List.not_mem_nil, or_false] at last
    rcases last with rfl | rfl | rfl
    · exact .inr (spans_divider size)
    · exact .inr (spans_statusBar h size)
    · exact .inr (spans_bottomBorder size)

theorem newline_not_mem_frameLines {state : MonitorState} (h : PrintableState state)
    (size : TerminalSize) {line : Bytes} (member : line ∈ frameLines (.of state) size)
    : newline ∉ line := by
  rcases spans_frameLines h size member with rfl | spans
  · exact (spans_topHdr size).1.2
  · exact spans.1.2

/-- The lines of the output are the lines that were drawn. -/
theorem lines_renderNormal {state : MonitorState} (h : PrintableState state)
    (size : TerminalSize)
    : lines (renderNormal (.of state) size) = frameLines (.of state) size := by
  have whole : ∀ line ∈ frameLines (.of state) size, newline ∉ line :=
    fun line member => newline_not_mem_frameLines h size member
  have read := lines_flatMap [] whole
  rwa [List.append_nil, lines, List.append_nil] at read

-----------------------------------------------------------------------------------------
-- The whole frame
-----------------------------------------------------------------------------------------

theorem frameCols_eq (size : TerminalSize) : size.frameCols = max size.cols.toNat kMinCols := by
  rw [TerminalSize.frameCols]
  split <;> omega

theorem frameRows_eq (size : TerminalSize) : size.frameRows = max size.rows.toNat kMinRows := by
  rw [TerminalSize.frameRows]
  split <;> omega

theorem clamp_eq {v lo hi : Nat} (h : lo ≤ hi)
    : TerminalSize.clamp v lo hi = max lo (min v hi) := by
  rw [TerminalSize.clamp]
  split
  · omega
  · split <;> omega

/-- The left panel takes two fifths, and neither panel less than its smallest width. -/
theorem leftW_eq (size : TerminalSize)
    : size.leftW = max 18 (min ((size.frameCols - 3) * 2 / 5) (size.frameCols - 21)) := by
  have cols := frameCols_eq size
  simp only [kMinCols] at cols
  simp only [TerminalSize.leftW, TerminalSize.panelWidth, kMinSideW, kLeftPanelRatioNumerator,
    kPanelRatioDenominator, kPanelBordersWidth]
  rw [clamp_eq (by omega), Nat.sub_sub]

/-- Both panels and the three borders fill the columns. -/
theorem panels_fill (size : TerminalSize)
    : size.leftW + size.rightW + 3 = max size.cols.toNat kMinCols := by
  have cols := frameCols_eq size
  have left := leftW_eq size
  simp only [TerminalSize.rightW, TerminalSize.panelWidth, kMinCols, kPanelBordersWidth]
    at cols ⊢
  omega

/-- Both titles fit their panels from 56 columns on. -/
theorem titles_fit_iff (size : TerminalSize)
    : 21 ≤ size.leftW ∧ 21 ≤ size.rightW ↔ 56 ≤ size.cols.toNat := by
  have cols := frameCols_eq size
  have left := leftW_eq size
  simp only [TerminalSize.rightW, TerminalSize.panelWidth, kMinCols, kPanelBordersWidth]
    at cols ⊢
  omega

theorem length_frameLines (frame : Frame) (size : TerminalSize)
    : (frameLines frame size).length = max size.rows.toNat kMinRows := by
  have rows := frameRows_eq size
  rw [frameLines, List.length_append, List.length_cons, List.length_map, List.length_range,
    TerminalSize.mainH, rows]
  simp only [List.length_cons, List.length_nil, kMinRows, kDashboardFrameRows]
  omega

/-- A frame has the geometry of its terminal exactly when its header has its width. -/
theorem frameGeometry_iff_header {state : MonitorState} (h : PrintableState state)
    (size : TerminalSize)
    : FrameGeometry size (render state size)
      ↔ visualLen (topHdr size) = max size.cols.toNat kMinCols := by
  constructor
  · intro geometry
    obtain ⟨body, emitted, _, widths⟩ := geometry
    obtain rfl := List.append_cancel_left (show cursorHome ++ _ = _ from emitted)
    rw [lines_renderNormal h] at widths
    refine widths _ ?_
    rw [frameLines]
    exact List.mem_cons_self
  · intro header
    refine ⟨renderNormal (.of state) size, rfl, ?_, ?_⟩
    · rw [lines_renderNormal h, length_frameLines]
    · intro line member
      rw [lines_renderNormal h] at member
      rcases spans_frameLines h size member with rfl | spans
      · exact header
      · rw [spans.2, panels_fill]

/-- The header outgrows the frame as long as a title is wider than its panel. -/
theorem render_geometry_iff (state : MonitorState) (size : TerminalSize)
    (printable : PrintableState state)
    : FrameGeometry size (render state size) ↔ 56 ≤ size.cols.toNat := by
  rw [frameGeometry_iff_header printable, (spans_topHdr size).2, ← panels_fill,
    ← titles_fit_iff]
  omega

/-- A state with one event whose message has a character of three bytes. -/
def sampleState : MonitorState where
  events := [{ timestamp := utf8 "12:00:00", source := utf8 "KERNEL", message := utf8 "RO — RW" }]

theorem sampleState_printable : PrintableState sampleState where
  beforeLevel := printable_literal (by decide)
  beforeStatus := printable_literal (by decide)
  afterLevel := printable_literal (by decide)
  afterStatus := printable_literal (by decide)
  events := by
    intro ev member
    obtain rfl := List.mem_singleton.mp member
    exact ⟨printable_literal (by decide), printable_literal (by decide),
      printable_literal (by decide)⟩
  scenarioId := printable_literal (by decide)
  scenarioTitle := printable_literal (by decide)

/-- The default terminal is wide enough. -/
theorem render_geometry_default : FrameGeometry {} (render sampleState {}) :=
  (render_geometry_iff sampleState {} sampleState_printable).mpr (by decide)

/-- The smallest terminal that is drawn in full: its header has 45 columns instead of 40. -/
theorem render_geometry_smallest
    : PrintableState sampleState ∧ visualLen (topHdr ⟨40, 12⟩) = 45
      ∧ ¬ FrameGeometry ⟨40, 12⟩ (render sampleState ⟨40, 12⟩) := by
  have header : visualLen (topHdr ⟨40, 12⟩) = 45 := (spans_topHdr ⟨40, 12⟩).2
  refine ⟨sampleState_printable, header, fun geometry => ?_⟩
  rw [frameGeometry_iff_header sampleState_printable, header] at geometry
  exact absurd geometry (by decide)

end SafetyIsolation.Frames
