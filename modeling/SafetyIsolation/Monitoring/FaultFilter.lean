import SafetyIsolation.Interleaving.Steps
import SafetyIsolation.Kernel.Loading

/-! The die notifier's filter among changes of the protected range. A change stores both bounds
under the log lock; the filter reads them up to four times without it.
-/

namespace SafetyIsolation.Monitoring

open SafetyIsolation.Interleaving SafetyIsolation.Kernel

/-- `protected_range_start` and `protected_range_end`. -/
inductive Bound where
  | start
  | stop
  deriving DecidableEq

structure Range where
  start : UInt64
  stop : UInt64
  deriving DecidableEq

def Range.read (range : Range) : Bound → UInt64
  | .start => range.start
  | .stop => range.stop

/-- The monitor in which a range is completely installed decides to log a fault. -/
def Range.logs (range : Range) (faultAddr : UInt64) : Bool :=
  !(CtxMonitor.zeroed.setProtectedRange range.start range.stop).filteredOut faultAddr

abbrev Callback : Type := Prog Bound (fun _ => UInt64) Bool

/-- The decision of `ctx_die_notifier_cb` for a fault with registers: every mention of a bound is
a read of its own, and the result tells whether the fault is logged.
-/
def ctxDieNotifierCb (faultAddr : UInt64) : Callback :=
  .act .start (fun start =>
    if start ≠ 0 then
      .act .stop (fun stop =>
        if stop ≠ 0 then
          .act .start (fun start =>
            if faultAddr < start then .ret false
            else .act .stop (fun stop => if faultAddr ≥ stop then .ret false else .ret true))
        else .ret true)
    else .ret true)

/-- Undisturbed, the reads make the decision of the filter. -/
theorem ctxDieNotifierCb_evalAt (faultAddr : UInt64) (range : Range)
    : (ctxDieNotifierCb faultAddr).evalAt Range.read range = range.logs faultAddr := by
  simp only [ctxDieNotifierCb, Prog.evalAt, Range.read, Range.logs, CtxMonitor.filteredOut,
    CtxMonitor.setProtectedRange]
  by_cases hasStart : range.start = 0
  · simp [hasStart, Prog.evalAt]
  · by_cases hasStop : range.stop = 0
    · simp [hasStart, hasStop, Prog.evalAt, Range.read]
    · by_cases below : faultAddr < range.start
      · simp [hasStart, hasStop, below, Prog.evalAt, Range.read]
      · by_cases above : range.stop ≤ faultAddr
        · simp [hasStart, hasStop, below, above, Prog.evalAt, Range.read]
        · simp [hasStart, hasStop, below, above, Prog.evalAt, Range.read]

/-- One execution of the callback: the two variables, the end that a change under way has still
to store, what is left of the callback, whether it has read anything, and every range that was
completely installed at some moment since its entry and before its decision.
-/
structure Notification where
  range : Range
  pending : Option UInt64
  callback : Callback
  started : Bool
  installed : List Range

inductive FilterEvent where
  | storeStart (start stop : UInt64)
  | storeEnd
  | read
  deriving DecidableEq

namespace Notification

/-- The callback is entered; a change may be between its two stores. -/
def enter (range : Range) (pending : Option UInt64) (faultAddr : UInt64) : Notification where
  range := range
  pending := pending
  callback := ctxDieNotifierCb faultAddr
  started := false
  installed := if pending = none then [range] else []

/-- The first store of `ctx_monitor_set_protected_range`, once it has the lock. -/
def storeStart (s : Notification) (start stop : UInt64) : Notification :=
  { s with range := { s.range with start }, pending := some stop }

/-- The second store, which completes the range. -/
def storeEnd (s : Notification) (stop : UInt64) : Notification :=
  let range := { s.range with stop }
  {
    s with
    range
    pending := none
    installed := if s.callback.returned then s.installed else s.installed ++ [range]
  }

def step (s : Notification) : FilterEvent → Option Notification
  | .storeStart start stop =>
      match s.pending with
      | none => some (s.storeStart start stop)
      | some _ => none
  | .storeEnd =>
      match s.pending with
      | some stop => some (s.storeEnd stop)
      | none => none
  | .read =>
      match s.callback with
      | .act bound next =>
          some { s with callback := next (s.range.read bound), started := true }
      | .ret _ => none

/-- The callback never reads between the two stores of a change, and no change begins between
two of its reads.
-/
def Undivided (s : Notification) : FilterEvent → Prop
  | .read => s.pending = none
  | .storeStart _ _ => s.started = false ∨ s.callback.returned = true
  | .storeEnd => True

/-- What is left of the callback decides by a range that was in force. -/
structure Sound (faultAddr : UInt64) (s : Notification) : Prop where
  complete : s.callback.returned = false → s.pending = none → s.range ∈ s.installed
  fresh : s.started = false → s.callback = ctxDieNotifierCb faultAddr
  reading : s.started = true → s.callback.returned = false
    → s.pending = none ∧ s.callback.evalAt Range.read s.range = s.range.logs faultAddr
  decided : ∀ logged, s.callback = .ret logged
    → ∃ range ∈ s.installed, logged = range.logs faultAddr

theorem Sound.enter (range : Range) (pending : Option UInt64) (faultAddr : UInt64)
    : Sound faultAddr (enter range pending faultAddr) where
  complete := by
    intro _ free
    have free : pending = none := free
    subst free
    exact List.mem_singleton.mpr rfl
  fresh _ := rfl
  reading started := by cases started
  decided logged isReturn := by cases isReturn

/-- While it reads, the callback sees the range that is in force, by cases over the steps. -/
theorem Sound.step {faultAddr : UInt64} {s s' : Notification} {event : FilterEvent}
    (h : Sound faultAddr s) (undivided : s.Undivided event) (stepped : s.step event = some s')
    : Sound faultAddr s' := by
  cases event with
  | storeStart start stop =>
      cases pending : s.pending with
      | some _ => simp [Notification.step, pending] at stepped
      | none =>
          simp only [Notification.step, pending, Option.some.injEq] at stepped
          subst stepped
          refine ⟨fun _ free => (by cases free), h.fresh, ?_, h.decided⟩
          intro started unfinished
          rcases undivided with unread | finished
          · exact absurd (started.symm.trans unread) (by decide)
          · exact absurd (unfinished.symm.trans finished) (by decide)
  | storeEnd =>
      cases pending : s.pending with
      | none => simp [Notification.step, pending] at stepped
      | some stop =>
          simp only [Notification.step, pending, Option.some.injEq] at stepped
          subst stepped
          refine ⟨?_, h.fresh, ?_, ?_⟩
          · intro unfinished _
            have unfinished : s.callback.returned = false := unfinished
            simp [Notification.storeEnd, unfinished]
          · intro started unfinished
            have free := (h.reading started unfinished).1
            rw [pending] at free
            cases free
          · intro logged isReturn
            have isReturn : s.callback = .ret logged := isReturn
            simp only [Notification.storeEnd, isReturn, Prog.returned, if_true]
            exact h.decided logged isReturn
  | read =>
      have free : s.pending = none := undivided
      cases running : s.callback with
      | ret logged => simp [Notification.step, running] at stepped
      | act bound next =>
          simp only [Notification.step, running, Option.some.injEq] at stepped
          subst stepped
          have unfinished : s.callback.returned = false := by rw [running]; rfl
          have inForce := h.complete unfinished free
          -- Up to this read the rest of the callback decides by the range it now reads.
          have decides : (next (s.range.read bound)).evalAt Range.read s.range
              = s.range.logs faultAddr := by
            have whole : s.callback.evalAt Range.read s.range = s.range.logs faultAddr := by
              cases started : s.started with
              | true => exact (h.reading started unfinished).2
              | false => rw [h.fresh started, ctxDieNotifierCb_evalAt]
            rw [running] at whole
            exact whole
          refine ⟨fun _ _ => inForce, fun unread => (by cases unread),
            fun _ _ => ⟨free, decides⟩, ?_⟩
          intro logged isReturn
          have isReturn : next (s.range.read bound) = .ret logged := isReturn
          rw [isReturn] at decides
          exact ⟨s.range, inForce, decides⟩

end Notification

/-- In every run in which no change of the range comes between the reads of the callback, its
decision is the one of a range that was completely installed between its entry and its return.
-/
theorem fault_filter_in_force {range : Range} {pending : Option UInt64} {faultAddr : UInt64}
    {events : List FilterEvent} {s : Notification} {logged : Bool}
    (ran : Steps Notification.step Notification.Undivided
      (Notification.enter range pending faultAddr) events s)
    (decided : s.callback = .ret logged)
    : ∃ inForce ∈ s.installed, logged = inForce.logs faultAddr := by
  have sound := ran.invariant (Notification.Sound faultAddr)
    (fun _ _ _ h undivided stepped => h.step undivided stepped) (.enter range pending faultAddr)
  exact sound.decided logged decided

/-- The range while the sample page is protected. -/
def sampleRange : Range :=
  ⟨(samplePage true).virtAddr, (samplePage true).virtAddr + pageSize⟩

/-- A change before the reads and one after them. -/
theorem fault_filter_in_force_between_changes
    : ∃ s, Steps Notification.step Notification.Undivided
          (Notification.enter ⟨0, 0⟩ none (sampleRange.start + 8))
          [.storeStart sampleRange.start sampleRange.stop, .storeEnd, .read, .read, .read, .read,
            .storeStart 0 0, .storeEnd] s
        ∧ ∃ inForce ∈ s.installed, true = inForce.logs (sampleRange.start + 8) := by
  obtain ⟨s, ran, decided⟩ : ∃ s, Steps Notification.step Notification.Undivided
      (Notification.enter ⟨0, 0⟩ none (sampleRange.start + 8))
      [.storeStart sampleRange.start sampleRange.stop, .storeEnd, .read, .read, .read, .read,
        .storeStart 0 0, .storeEnd] s ∧ s.callback = .ret true := by
    refine ⟨_, .cons (.inl rfl) rfl (.cons trivial rfl (.cons rfl rfl (.cons rfl rfl (.cons rfl
      rfl (.cons rfl rfl (.cons (.inr rfl) rfl (.cons trivial rfl (.nil _)))))))), ?_⟩
    rfl
  exact ⟨s, ran, fault_filter_in_force ran decided⟩

/-- `safety_mem_set_protection(false)` before the last read: the event is dropped, although the
page that was protected at the entry and the empty range installed since would both log it.
-/
theorem fault_filter_mixes_ranges
    : ∃ s, Steps Notification.step (fun _ _ => True)
          (Notification.enter sampleRange none (sampleRange.start + 8))
          [.read, .read, .read, .storeStart 0 0, .storeEnd, .read] s
        ∧ s.callback = .ret false
        ∧ ¬ ∃ inForce ∈ s.installed, false = inForce.logs (sampleRange.start + 8) := by
  refine ⟨_, .cons trivial rfl (.cons trivial rfl (.cons trivial rfl (.cons trivial rfl
    (.cons trivial rfl (.cons trivial rfl (.nil _)))))), ?_, ?_⟩
  · rfl
  · intro mixed
    obtain ⟨inForce, member, same⟩ := mixed
    have logged : ∀ range ∈ [sampleRange, ⟨0, 0⟩],
        range.logs (sampleRange.start + 8) = true := by
      decide
    exact absurd (same.trans (logged inForce member)) (by decide)

end SafetyIsolation.Monitoring
