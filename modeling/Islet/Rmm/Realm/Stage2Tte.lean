import Islet.Armv9a.Bits

/-! Stage-2 translation table entries and the questions the RTT code asks about
them. An entry is the 64-bit descriptor itself; the predicates are those of
`S2TTE`, with the levels at which each of them answers. -/

namespace Islet.Rmm.S2tte

open Bits

def ns : Word := defineMask 55 55
def xn : Word := defineMask 54 54
def addrBlkL0 : Word := defineMask 47 39
def addrBlkL1 : Word := defineMask 47 30
def addrBlkL2 : Word := defineMask 47 21
def addrBlkL3 : Word := defineMask 47 12
def addrTblOrPage : Word := defineMask 47 12
def af : Word := defineMask 10 10
def sh : Word := defineMask 9 8
def s2ap : Word := defineMask 7 6
def invalidRipas : Word := defineMask 6 5
def invalidHipas : Word := defineMask 4 2
def memattr : Word := defineMask 5 2
def descType : Word := defineMask 1 0
def type : Word := defineMask 1 1
def valid : Word := defineMask 0 0

/-- `invalid_hipas`. -/
def unassigned : Word := 0b00
def assigned : Word := 0b01

/-- `invalid_ripas`. -/
def ripasEmpty : Word := 0b0
def ripasRam : Word := 0b1
def ripasDestroyed : Word := 0b10

/-- `desc_type`. -/
def l012Table : Word := 0x3
def l012Block : Word := 0x1
def l3Page : Word := 0x3
def lxInvalid : Word := 0x0

def memattrNormalFwb : Word := 0b0110
def memattrFwbReserved : Word := 0b0100
def permissionRw : Word := 0b11
def shareableReserved : Word := 0b01
def shareableInner : Word := 0b11

def invalidUnprotected : Word := 0x0

def rttMinBlockLevel : Nat := 2
def rttPageLevel : Nat := 3

/-- The size an entry of a level maps; no other level exists. -/
def mappingSize? : Nat → Option Nat
  | 3 => some (2 ^ 12)
  | 2 => some (2 ^ 21)
  | 1 => some (2 ^ 30)
  | 0 => some (2 ^ 39)
  | _ => none

def levelMask : Nat → Option Word
  | 3 => some addrBlkL3
  | 2 => some addrBlkL2
  | 1 => some addrBlkL1
  | 0 => some addrBlkL0
  | _ => none

def isValid (e : Word) (level : Nat) (isNs : Bool) : Bool :=
  let nsBit := getMaskedValue e ns
  let nsValid := if isNs then nsBit == 1 else nsBit == 0
  nsValid && ((level == 3 && getMaskedValue e descType == l3Page) ||
    (level == 2 && getMaskedValue e descType == l012Block))

def isHostNsValid (e : Word) (level : Nat) : Bool :=
  let addrMask := match level with
    | 1 => some addrBlkL1
    | 2 => some addrBlkL2
    | 3 => some addrBlkL3
    | _ => none
  match addrMask with
  | none => false
  | some addrMask =>
    let mask := addrMask ||| memattr ||| s2ap ||| sh
    (e &&& ~~~mask) == 0 && getMaskedValue e memattr != memattrFwbReserved &&
      getMaskedValue e sh != shareableReserved

def isUnassigned (e : Word) : Bool :=
  getMaskedValue e descType == lxInvalid && getMaskedValue e invalidHipas == unassigned &&
    getMaskedValue e ns == 0

def isUnassignedEmpty (e : Word) : Bool :=
  isUnassigned e && getMaskedValue e invalidRipas == ripasEmpty

def isUnassignedDestroyed (e : Word) : Bool :=
  isUnassigned e && getMaskedValue e invalidRipas == ripasDestroyed

def isUnassignedRam (e : Word) : Bool :=
  isUnassigned e && getMaskedValue e invalidRipas == ripasRam

def isUnassignedNs (e : Word) : Bool :=
  getMaskedValue e descType == lxInvalid && getMaskedValue e invalidHipas == unassigned &&
    getMaskedValue e ns != 0

def isDestroyed (e : Word) : Bool :=
  getMaskedValue e descType == lxInvalid && getMaskedValue e invalidRipas == ripasDestroyed

def isAssigned (e : Word) : Bool :=
  getMaskedValue e ns == 0 && getMaskedValue e descType == lxInvalid &&
    getMaskedValue e invalidHipas == assigned

def isAssignedEmpty (e : Word) : Bool :=
  isAssigned e && getMaskedValue e invalidRipas == ripasEmpty

def isAssignedDestroyed (e : Word) : Bool :=
  isAssigned e && getMaskedValue e invalidRipas == ripasDestroyed

/-- A page at level 3 or a block at level 2; blocks of level 1 do not count. -/
def isLeafAt (e : Word) (level : Nat) : Bool :=
  (level == 3 && getMaskedValue e descType == l3Page) ||
    (level == 2 && getMaskedValue e descType == l012Block)

def isAssignedRam (e : Word) (level : Nat) : Bool :=
  getMaskedValue e ns == 0 && isLeafAt e level

def isAssignedNs (e : Word) (level : Nat) : Bool :=
  getMaskedValue e ns != 0 && isLeafAt e level

def isTable (e : Word) (level : Nat) : Bool :=
  level < 3 && getMaskedValue e descType == l012Table

def getRipas (e : Word) : Word := getMaskedValue e invalidRipas

def isInvalidRipas (e : Word) : Bool :=
  getMaskedValue e descType != lxInvalid && getRipas e != ripasRam

/-- The address field of an entry of level 1, 2 or 3. -/
def blockMask : Nat → Word
  | 1 => addrBlkL1
  | 2 => addrBlkL2
  | 3 => addrBlkL3
  | _ => 0

/-- `addr_as_block`, unreachable at other levels. -/
def addrAsBlock? (e : Word) (level : Nat) : Option Word :=
  if 1 ≤ level ∧ level ≤ 3 then some (getMasked e (blockMask level)) else none

def isLive (e : Word) : Bool :=
  getMaskedValue e descType != lxInvalid || isAssignedEmpty e || isAssignedDestroyed e

/-- What `is_homogeneous` remembers of the first entry. -/
structure Reference where
  descType : Word
  hipas : Word
  ripas : Word
  ns : Word
  attr : Word

/-- The loop of `is_homogeneous` after the first entry. `pa` is the output
address of the last entry that had one. -/
def homogeneousRest (level : Nat) (mapSize : Word) (first : Reference) : Word → List Word → Bool
  | _, [] => true
  | pa, e :: rest =>
    if first.descType ≠ getMaskedValue e descType then false
    else if isAssignedNs e level then
      pa + mapSize == getMasked e (blockMask level) &&
        first.attr == (e &&& ~~~((levelMask level).getD 0)) &&
        homogeneousRest level mapSize first (pa + mapSize) rest
    else if isAssignedRam e level || isAssigned e then
      pa + mapSize == getMasked e (blockMask level) &&
        first.ripas == getMaskedValue e invalidRipas &&
        homogeneousRest level mapSize first (pa + mapSize) rest
    else if isUnassignedNs e then
      first.ns == getMaskedValue e ns && first.hipas == getMaskedValue e invalidHipas &&
        homogeneousRest level mapSize first pa rest
    else if isUnassigned e then
      first.hipas == getMaskedValue e invalidHipas &&
        first.ripas == getMaskedValue e invalidRipas &&
        homogeneousRest level mapSize first pa rest
    else homogeneousRest level mapSize first pa rest

/-- `is_homogeneous` on the entries of a table of level 1, 2 or 3. -/
def isHomogeneous (entries : List Word) (level : Nat) : Bool :=
  match entries with
  | [] => true
  | e :: rest =>
    let mapSize := BitVec.ofNat 64 ((mappingSize? level).getD 0)
    let first : Reference :=
      ⟨getMaskedValue e descType, getMaskedValue e invalidHipas, getMaskedValue e invalidRipas,
        getMaskedValue e ns, 0⟩
    if isAssignedNs e level || isAssignedRam e level || isAssigned e then
      if level ≠ 2 ∧ level ≠ 3 then false
      else
        let pa := getMasked e (blockMask level)
        if pa &&& ~~~((levelMask (level - 1)).getD 0) ≠ 0 then false
        else
          homogeneousRest level mapSize
            { first with attr := e &&& ~~~((levelMask level).getD 0) } pa rest
    else homogeneousRest level mapSize first 0 rest

end Islet.Rmm.S2tte
