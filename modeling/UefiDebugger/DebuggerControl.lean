import Mathlib.Logic.Basic

/-!
# The configuration of the debugger

`DebugConfigPeiEntry` puts a `DEBUGGER_CONTROL_HOB` into the HOB list when the device state asks for
source debugging; the agents of DXE and MM look for it there and start when their flag is set in it.
A build can force them on instead, with a configuration of their own.
-/
namespace UefiDebugger

/-- `DEBUGGER_CONTROL_HOB`, with the flags as `Control.AsUint32`. -/
structure DebuggerControlHob where
  AsUint32 : BitVec 32
  PerformanceCounterFreq : BitVec 64
  InitialBreakpointTimeout : BitVec 64
  deriving DecidableEq, Repr

namespace DebuggerControlHob

/-- `Control.Flags.InitialBreakpoint`. -/
def InitialBreakpoint (h : DebuggerControlHob) : Bool := h.AsUint32.getLsbD 0

/-- `Control.Flags.DxeDebugEnabled`. -/
def DxeDebugEnabled (h : DebuggerControlHob) : Bool := h.AsUint32.getLsbD 1

/-- `Control.Flags.MmDebugEnabled`. -/
def MmDebugEnabled (h : DebuggerControlHob) : Bool := h.AsUint32.getLsbD 2

/-- `Control.Flags.DisablePolling`. -/
def DisablePolling (h : DebuggerControlHob) : Bool := h.AsUint32.getLsbD 3

end DebuggerControlHob

/-- An entry of the HOB list: one with `gDebuggerControlHobGuid`, or another one. -/
inductive Hob where
  | debuggerControl (data : DebuggerControlHob)
  | other
  deriving DecidableEq, Repr

/-- `GetNextGuidHob` for `gDebuggerControlHobGuid`, from the start of a list: its data. -/
def getNextGuidHob : List Hob → Option DebuggerControlHob
  | [] => none
  | .debuggerControl data :: _ => some data
  | .other :: hobs => getNextGuidHob hobs

/-! ## PEI -/

/-- Whether the processor has a time stamp counter that PEI measures, and its values around the
delay. -/
inductive ArchTimer where
  | x64 (StartTick EndTick : BitVec 64)
  | aarch64

/-- What `DebugConfigPeiEntry` finds: the device state and its flag for source debugging, the PCDs,
the counter, and whether `BuildGuidHob` has space. -/
structure PeiSettings where
  deviceState : BitVec 32
  sourceDebugEnabled : BitVec 32
  PcdDebugConfigFlags : BitVec 32
  PcdInitialBreakpointTimeoutMs : BitVec 64
  timer : ArchTimer
  space : Bool

/-- `ArchDebugConfig`. -/
def archDebugConfig (timer : ArchTimer) (ConfigHob : DebuggerControlHob) : DebuggerControlHob :=
  match timer with
  | .x64 StartTick EndTick => { ConfigHob with PerformanceCounterFreq := EndTick - StartTick }
  | .aarch64 => ConfigHob

/-- `DebugConfigPeiEntry`: whether it returns `EFI_SUCCESS`, and the HOB list. -/
def debugConfigPeiEntry (E : PeiSettings) (hobs : List Hob) : Bool × List Hob :=
  if E.deviceState &&& E.sourceDebugEnabled = 0 then (true, hobs)
  else if E.space = false then (false, hobs)
  else
    (true,
      hobs ++
      [.debuggerControl
        (archDebugConfig E.timer ⟨E.PcdDebugConfigFlags, 0, E.PcdInitialBreakpointTimeoutMs⟩)])

/-! ## Which configuration an agent takes -/

/-- `DefaultDebugConfig` of DXE. -/
def dxeDefaultDebugConfig : DebuggerControlHob := ⟨0x3, 0x300000, 0⟩

/-- `DefaultDebugConfig` of MM. -/
def mmDefaultDebugConfig : DebuggerControlHob := ⟨0x5, 0x300000, 0⟩

/-- `DefaultPeiDebugConfig`. -/
def defaultPeiDebugConfig : DebuggerControlHob := ⟨0x1, 0x300000, 0⟩

/-- The configuration with which an agent starts: its own if it is forced, that of the HOB if the
HOB is there and its flag is set, or none. -/
def configuration (forced : Bool) (default : DebuggerControlHob)
    (enabled : DebuggerControlHob → Bool) (Context : List Hob) : Option DebuggerControlHob :=
  if forced = true then some default else (getNextGuidHob Context).filter enabled

/-- That of DXE. -/
def dxeConfiguration (PcdForceEnableDebugger : Bool) : List Hob → Option DebuggerControlHob :=
  configuration PcdForceEnableDebugger dxeDefaultDebugConfig DebuggerControlHob.DxeDebugEnabled

/-- That of MM. -/
def mmConfiguration (PcdForceEnableDebugger : Bool) : List Hob → Option DebuggerControlHob :=
  configuration PcdForceEnableDebugger mmDefaultDebugConfig DebuggerControlHob.MmDebugEnabled

/-! ## From PEI to the agents -/

/-- PEI is asked to configure the debugger, and can. -/
def PeiSettings.configures (E : PeiSettings) : Bool :=
  E.deviceState &&& E.sourceDebugEnabled != 0 && E.space

/-- The HOB that PEI leaves. -/
def PeiSettings.controlHob (E : PeiSettings) : DebuggerControlHob :=
  archDebugConfig E.timer ⟨E.PcdDebugConfigFlags, 0, E.PcdInitialBreakpointTimeoutMs⟩

theorem getNextGuidHob_append {hobs : List Hob} (h : getNextGuidHob hobs = none) (more : List Hob) :
    getNextGuidHob (hobs ++ more) = getNextGuidHob more := by
  induction hobs with
  | nil => rfl
  | cons hob hobs ih =>
    cases hob with
    | debuggerControl data => cases h
    | other => exact ih h

theorem getNextGuidHob_pei (E : PeiSettings) {hobs : List Hob} (h : getNextGuidHob hobs = none) :
    getNextGuidHob (debugConfigPeiEntry E hobs).2 =
      if E.configures = true then some E.controlHob else none := by
  rw [debugConfigPeiEntry, PeiSettings.configures]
  by_cases hasked : E.deviceState &&& E.sourceDebugEnabled = 0
  · rw [if_pos hasked]
    simp [hasked, h]
  · rw [if_neg hasked]
    cases hspace : E.space with
    | false => simp [h]
    | true =>
      simp only [Bool.true_eq_false, if_false, getNextGuidHob_append h]
      rw [bne_iff_ne.mpr hasked]
      rfl

/-- What an agent starts with behind PEI. -/
theorem configuration_pei (forced : Bool) (default : DebuggerControlHob)
    (enabled : DebuggerControlHob → Bool) (E : PeiSettings) {hobs : List Hob}
    (h : getNextGuidHob hobs = none) :
    configuration forced default enabled (debugConfigPeiEntry E hobs).2 =
      if forced = true then some default
      else if (E.configures && enabled E.controlHob) = true then some E.controlHob else none := by
  rw [configuration, getNextGuidHob_pei E h]
  cases E.configures with
  | true => simp [Option.filter]
  | false => rfl

end UefiDebugger
