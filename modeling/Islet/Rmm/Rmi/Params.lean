import Islet.Rmm.Objects

/-! The parameter structures the host passes to REALM_CREATE and REC_CREATE, by
the page they fill, and the checks the monitor makes on them alone. A field is
read off the page at the offset the Rust structure fixes. -/

namespace Islet.Rmm

open Bits

/-- The little-endian unsigned number of `len` bytes, inside one word of a page. -/
def Page.field (p : Page) (offset len : Nat) : Nat :=
  (p (offset / 8)).toNat / 2 ^ (8 * (offset % 8)) % 2 ^ (8 * len)

/-- `simd::validate`. -/
def simdValidate [Platform] (en : Bool) (sveVl : Nat) : Bool :=
  !(en && !Platform.sveEn) && decide (sveVl ≤ Platform.sveVq)

/-- `features::validate`. -/
def featuresValidate (s2sz : Nat) : Bool := 32 ≤ s2sz && s2sz ≤ 48

abbrev hashAlgoSha256 : Nat := 0

abbrev hashAlgoSha512 : Nat := 1

/-- `rmi::realm::Params`. -/
structure RealmParams where
  page : Page

namespace RealmParams

variable (p : RealmParams)

def flags : Word := p.page 0

def s2sz : Nat := p.page.field 0x8 1

def sveVl : Nat := p.page.field 0x10 1

def hashAlgo : Nat := p.page.field 0x30 1

def rpv : List Byte := p.page.slice 0x400 64

def vmid : Nat := p.page.field 0x800 2

def rttBase : Nat := (p.page 0x101).toNat

/-- The `i64` field by its bits, which is how each use casts it. -/
def rttLevelStart : Word := p.page 0x102

def rttNumStart : Nat := p.page.field 0x818 4

def lpa2 : Word := getMaskedValue p.flags (defineMask 0 0)

def pmu : Word := getMaskedValue p.flags (defineMask 2 2)

def ipaBits : Nat := p.s2sz

def sveEn : Bool := getMaskedValue p.flags (defineMask 1 1) == 1

/-- `RTT_PAGE_LEVEL - rtt_slvl`, wrapping. -/
def levels : Word := 3 - p.rttLevelStart

def minIpaBits : Word := p.levels * 9 + 12 + 1

def maxIpaBits : Word := p.minIpaBits + (9 - 1) + 4

def slIpaBits : Word := p.levels * 9 + 12 + 9

def numRootRtts : Nat :=
  let ipaBits := BitVec.ofNat 64 p.ipaBits
  if ipaBits ≤ p.slIpaBits then 1 else 2 ^ ((ipaBits - p.slIpaBits).toNat % 32)

variable [Platform]

/-- `verify_compliance`; each failed check is the same error. -/
def verifyCompliance (rd : Nat) : Bool :=
  let ipaBits := BitVec.ofNat 64 p.ipaBits
  p.rttBase != rd &&
    p.rttBase % granuleSize == 0 &&
    featuresValidate p.s2sz &&
    !(decide (ipaBits < p.minIpaBits) || decide (p.maxIpaBits < ipaBits)) &&
    p.numRootRtts == p.rttNumStart &&
    p.lpa2 == 0 &&
    simdValidate p.sveEn p.sveVl &&
    p.pmu == 0 &&
    (p.hashAlgo == hashAlgoSha256 || p.hashAlgo == hashAlgoSha512)

end RealmParams

abbrev maxRecAuxGranules : Nat := 16

namespace Mpidr

def aff0 : Word := defineMask 3 0
def aff1 : Word := defineMask 15 8
def aff2 : Word := defineMask 23 16
def aff3 : Word := defineMask 31 24

def index (mpidr : Word) : Nat :=
  (getMaskedValue mpidr aff0).toNat + 16 * (getMaskedValue mpidr aff1).toNat +
    16 * 256 * (getMaskedValue mpidr aff2).toNat + 16 * 256 * 256 * (getMaskedValue mpidr aff3).toNat

def validate (mpidr : Word) : Bool := mpidr &&& ~~~(aff0 ||| aff1 ||| aff2 ||| aff3) == 0

end Mpidr

/-- `rmi::rec::Params`. -/
structure RecParams where
  page : Page

namespace RecParams

variable (p : RecParams)

def flags : Word := p.page 0

def mpidr : Word := p.page 0x20

def pc : Word := p.page 0x40

def gprs (i : Nat) : Word := p.page (0x60 + i)

def numAux : Nat := (p.page 0x100).toNat

def aux (i : Nat) : Nat := (p.page (0x101 + i)).toNat

/-- The auxiliary granules in the order `sort` leaves them in. -/
@[irreducible] def sortedAux : List Nat := ((List.range maxRecAuxGranules).map p.aux).insertionSort (· ≤ ·)

end RecParams

end Islet.Rmm
