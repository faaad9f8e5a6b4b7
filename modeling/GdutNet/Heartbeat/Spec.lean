import GdutNet.Stream.Bytes

/-!
# The packets of the heartbeat

`heartbeat/spec.rs`: what the session sends and how it reads the replies. The three
digests come from other packages and are parameters.
-/

namespace GdutNet.Heartbeat

open Bytes (leBytes)

abbrev Seed := Vector UInt8 4

abbrev HostIp := Vector UInt8 4

abbrev Key := Vector UInt8 4

abbrev Flag := Vector UInt8 2

class Digests where
  md5 : List UInt8 → Vector UInt8 16
  md4 : List UInt8 → Vector UInt8 16
  sha1 : List UInt8 → Vector UInt8 20

/-- `(cnt + 2) % 128`; `none` is the overflow of the addition. -/
def nextCnt (cnt : UInt8) : Option UInt8 :=
  if cnt.toNat + 2 < 256 then some ((cnt + 2) % 128) else none

def zeros (n : ℕ) : List UInt8 := List.replicate n 0

def ka1Pkt1 (cnt : UInt8) : List UInt8 := [0x07, cnt, 0x08, 0x00, 0x01, 0x00, 0x00, 0x00]

/-- `pkt[i..i + 4]`, of a packet that is long enough. -/
def window (pkt : List UInt8) (i : ℕ) : Vector UInt8 4 :=
  #v[pkt.getD i 0, pkt.getD (i + 1) 0, pkt.getD (i + 2) 0, pkt.getD (i + 3) 0]

/-- The flag of a file packet. -/
def fileFlag (pkt : List UInt8) : Option Flag :=
  if pkt.getD 2 0 = 0x10 then some #v[pkt.getD 6 0, pkt.getD 7 0] else none

structure Ka1Init where
  seed : Seed
  hostIp : HostIp
  flag : Option Flag

def parseKa1Resp (pkt : List UInt8) : Option Ka1Init :=
  if pkt.head? ≠ some 0x07 ∨ pkt.length < 30 then none
  else some { seed := window pkt 8, hostIp := window pkt 12, flag := fileFlag pkt }

structure Ka2Resp where
  key : Key
  flag : Option Flag

def parseKa2Resp (pkt : List UInt8) : Option Ka2Resp :=
  if pkt.head? ≠ some 0x07 ∨ pkt.length < 20 then none
  else some { key := window pkt 16, flag := fileFlag pkt }

def plainBytes : List UInt8 := leBytes 4 20000711 ++ leBytes 4 126

/-- The 16-bit little-endian words of a packet, xored. -/
def xorWords : UInt16 → List UInt8 → UInt16
  | sum, lo :: hi :: rest => xorWords (sum ^^^ (lo.toUInt16 + hi.toUInt16 * 256)) rest
  | sum, _ => sum

def ka2Checksum (pkt : List UInt8) : List UInt8 :=
  leBytes 4 ((xorWords 0 pkt).toUInt32 * 0x2c7).toNat

/-- `to_be_bytes`. -/
def beBytes (n : UInt16) : List UInt8 := (leBytes 2 n.toNat).reverse

def ka2Pkt1 (cnt : UInt8) (flag : Flag) (rand : UInt16) (key : Key) : List UInt8 :=
  [0x07, cnt, 0x28, 0x00, 0x0b, 0x01] ++ flag.toList ++ beBytes rand ++ zeros 6 ++ key.toList ++
    zeros 20

/-- The checksum is over the packet with zeros in its place. -/
def ka2Pkt2 (cnt : UInt8) (flag : Flag) (rand : UInt16) (key : Key) (hostIp : HostIp) :
    List UInt8 :=
  let head := [0x07, cnt, 0x28, 0x00, 0x0b, 0x03] ++ flag.toList ++ beBytes rand ++ zeros 6 ++
    key.toList ++ zeros 4
  let tail := hostIp.toList ++ zeros 8
  head ++ ka2Checksum (head ++ zeros 4 ++ tail) ++ tail

section Digests

variable [Digests]

def md5Bytes (seed : Seed) : List UInt8 :=
  let d := Digests.md5 seed.toList
  [d[2], d[3], d[8], d[9], d[5], d[6], d[13], d[14]]

def md4Bytes (seed : Seed) : List UInt8 :=
  let d := Digests.md4 seed.toList
  [d[1], d[2], d[8], d[9], d[4], d[5], d[11], d[12]]

def sha1Bytes (seed : Seed) : List UInt8 :=
  let d := Digests.sha1 seed.toList
  [d[2], d[3], d[9], d[10], d[5], d[6], d[15], d[16]]

def cryptBytes (seed : Seed) : List UInt8 :=
  let mode := seed[0] &&& 3
  if mode = 0 then plainBytes
  else if mode = 1 then md5Bytes seed
  else if mode = 2 then md4Bytes seed
  else sha1Bytes seed

def ka1Pkt2 (cnt : UInt8) (first : Bool) (hostIp : HostIp) (seed : Seed) (flag : Flag) :
    List UInt8 :=
  [0x07, cnt, 0x60, 0x00, 0x03, 0x00] ++ zeros 6 ++ hostIp.toList ++
    [0x00, if first then 0x62 else 0x63] ++ flag.toList ++ seed.toList ++ cryptBytes seed ++
    zeros 64

end Digests

/-! ## Telling packets apart -/

/-- The counter in a packet. -/
def packetCnt (pkt : List UInt8) : UInt8 := pkt.getD 1 0

def isKa2 (pkt : List UInt8) : Bool := pkt.getD 2 0 = 0x28

def isKa2Pkt2 (pkt : List UInt8) : Bool := isKa2 pkt && pkt.getD 5 0 = 0x03

/-- The fields by which a packet is told from the others. -/
def kind (pkt : List UInt8) : UInt8 × UInt8 × UInt8 := (packetCnt pkt, pkt.getD 2 0, pkt.getD 5 0)

theorem kind_ka1Pkt1 (cnt : UInt8) : kind (ka1Pkt1 cnt) = (cnt, 0x08, 0x00) := rfl

theorem kind_ka1Pkt2 [Digests] (cnt : UInt8) (first : Bool) (hostIp : HostIp) (seed : Seed)
    (flag : Flag) : kind (ka1Pkt2 cnt first hostIp seed flag) = (cnt, 0x60, 0x00) := rfl

theorem kind_ka2Pkt1 (cnt : UInt8) (flag : Flag) (rand : UInt16) (key : Key) :
    kind (ka2Pkt1 cnt flag rand key) = (cnt, 0x28, 0x01) := rfl

theorem kind_ka2Pkt2 (cnt : UInt8) (flag : Flag) (rand : UInt16) (key : Key) (hostIp : HostIp) :
    kind (ka2Pkt2 cnt flag rand key hostIp) = (cnt, 0x28, 0x03) := rfl

/-- Below 128 the addition does not overflow. -/
theorem nextCnt_of_lt {cnt : UInt8} (h : cnt.toNat < 128) :
    ∃ cnt', nextCnt cnt = some cnt' ∧ cnt'.toNat = (cnt.toNat + 2) % 128 := by
  refine ⟨_, if_pos (by omega), ?_⟩
  rw [UInt8.toNat_mod, UInt8.toNat_add]
  show (cnt.toNat + 2) % 256 % 128 = _
  rw [Nat.mod_eq_of_lt (by omega : cnt.toNat + 2 < 256)]

example : nextCnt 125 = some 127 ∧ nextCnt 127 = some 1 := by decide

example : (ka2Pkt2 3 #v[0xdc, 0x02] 0x03e9 #v[0x43, 0xe1, 0xf3, 0x00]
    #v[0x0a, 0x1e, 0x84, 0xa7]).length = 40 := by decide +kernel

end GdutNet.Heartbeat
