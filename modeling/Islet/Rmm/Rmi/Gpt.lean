import Islet.Rmm.Machine

/-! GRANULE_DELEGATE and GRANULE_UNDELEGATE, and the two commands that touch no
granule, VERSION and FEATURES. -/

namespace Islet.Rmm.Rmi

open Lib Prog Bits

def granuleDelegate (addr : Nat) : RmmM Unit := do
  let granule ← getGranuleIf addr .undelegated
  let marked ← smcMarkRealm addr
  errIf (!marked) .rmiErrorInput
  pageTableMap addr true
  setGranule granule .delegated
  pageTableUnmap addr

/-- A refusal of EL3 to give back a delegated granule is a panic. -/
def granuleUndelegate (addr : Nat) : RmmM Unit := do
  let granule ← getGranuleIf addr .delegated
  let marked ← smcMarkNonsecure addr
  if !marked then fail .panic
  pageTableMap addr false
  setGranule granule .undelegated
  pageTableUnmap addr

abbrev abiMajorVersion : Nat := 1

abbrev abiMinorVersion : Nat := 0

def decodeVersion (version : Word) : Word × Word :=
  ((version &&& 0x7fff0000) >>> 16, version &&& 0xffff)

def encodeVersion : Nat := abiMajorVersion * 2 ^ 16 + abiMinorVersion

def version (req : Word) : RmmM Unit := do
  setRet 1 encodeVersion
  setRet 2 encodeVersion
  let (major, minor) := decodeVersion req
  errIf (major.toNat ≠ abiMajorVersion ∨ minor.toNat ≠ abiMinorVersion) .rmiErrorInput

/-- Feature register 0: 48-bit IPAs and both hash algorithms. -/
def featureReg0 : Word :=
  let reg := setMaskedValue 0 (defineMask 7 0) 48
  let reg := setMaskedValue reg (defineMask 8 8) 0
  let reg := setMaskedValue reg (defineMask 22 22) 0
  let reg := setMaskedValue reg (defineMask 27 23) 0
  let reg := setMaskedValue reg (defineMask 28 28) 1
  setMaskedValue reg (defineMask 29 29) 1

def features (index : Nat) : RmmM Unit :=
  if index ≠ 0 then setRet 1 0 else setRet 1 featureReg0.toNat

end Islet.Rmm.Rmi
