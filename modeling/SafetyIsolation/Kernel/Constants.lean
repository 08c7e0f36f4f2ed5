import Mathlib.Data.List.Basic

/-! The constants of `demo_constants.h`, kernel constants the modules use, and C strings. -/

namespace SafetyIsolation.Kernel

def demoDeviceNameSize : Nat := 32
def demoActionNameSize : Nat := 16
def demoLogCapacity : Nat := 128

def safetySentinel : UInt32 := 0x5AFE1234
def corruptSentinel : UInt32 := 0xDEADDEAD

def badDriverVmallocValue : UInt32 := 0xBAD10001
def badDriverMutexBypassValue : UInt32 := 0xBAD20002
def badDriverLinearAliasValue : UInt32 := 0xBAD30003

def smmuDemoStreamId : UInt32 := 0x01

def rogueAttackUnsynchronizedWrite : UInt32 := 0
def rogueAttackMutexMetadata : UInt32 := 1

/-- `PAGE_SIZE` of a 4 KiB granule kernel. -/
def pageSize : UInt64 := 4096

/-- `TASK_COMM_LEN`. -/
def taskCommLen : Nat := 16

def eFAULT : Int := 14
def eNOMEM : Int := 12

/-- A C string: its bytes up to, and not including, the terminating NUL. -/
def CString : Type := { bytes : List UInt8 // 0 ∉ bytes }
  deriving DecidableEq

/-- A C literal. -/
def CString.ofString (text : String) : CString :=
  ⟨(text.toList.map (fun c => c.toNat.toUInt8)).filter (· ≠ 0), by simp⟩

instance : Inhabited CString := ⟨⟨[], by simp⟩⟩

/-- `strscpy` into a buffer of `size` bytes: what fits before the terminator. -/
def strscpy (size : Nat) (src : CString) : CString :=
  ⟨src.1.take (size - 1), fun member => src.2 (List.mem_of_mem_take member)⟩

/-- The parts of `current` the modules log. -/
structure Task where
  pid : Int
  comm : CString
  comm_fits : comm.1.length < taskCommLen

instance : Inhabited Task := ⟨⟨0, default, by decide⟩⟩

/-- `get_task_comm`. -/
def getTaskComm (task : Task) : CString := strscpy taskCommLen task.comm

/-- A task name fits its field, so copying it changes nothing. -/
@[simp] theorem getTaskComm_eq (task : Task) : getTaskComm task = task.comm := by
  have fits := task.comm_fits
  apply Subtype.ext
  exact List.take_of_length_le (by omega)

end SafetyIsolation.Kernel
