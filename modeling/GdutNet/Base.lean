import Mathlib.Algebra.Order.Ring.Nat
import Mathlib.Data.List.Basic

/-!
# The pieces of the Rust standard library the service uses

Durations, IPv4 addresses and the string operations of the URL and reply
parsers. Clock readings are plain natural numbers of milliseconds: the clock
counts from process start, so `now + constant` stays far below `2^64`. Where
the source itself saturates at `u64::MAX`, so does the model.
-/

namespace GdutNet

def u64Max : ℕ := 2 ^ 64 - 1

def u32Max : ℕ := 2 ^ 32 - 1

/-- `u64::saturating_add`. -/
def satAdd (a b : ℕ) : ℕ := min (a + b) u64Max

def checkedAdd (a b : ℕ) : Option ℕ := if a + b ≤ u64Max then some (a + b) else none

def checkedSub (a b : ℕ) : Option ℕ := if b ≤ a then some (a - b) else none

theorem checkedAdd_eq {a b : ℕ} (h : a + b ≤ u64Max) : checkedAdd a b = some (a + b) := if_pos h

theorem checkedSub_eq {a b : ℕ} (h : b ≤ a) : checkedSub a b = some (a - b) := if_pos h

/-! ## `std::time::Duration` -/

structure Duration where
  nanos : ℕ
deriving DecidableEq, Repr

namespace Duration

def zero : Duration := ⟨0⟩

/-- `u64::MAX` seconds and 999 999 999 nanoseconds. -/
def max : Duration := ⟨u64Max * 1000000000 + 999999999⟩

def fromSecs (n : ℕ) : Duration := ⟨n * 1000000000⟩

def asMillis (d : Duration) : ℕ := d.nanos / 1000000

def add (a b : Duration) : Duration := ⟨a.nanos + b.nanos⟩

def div (d : Duration) (n : ℕ) : Duration := ⟨d.nanos / n⟩

def saturatingMul (d : Duration) (n : ℕ) : Duration :=
  ⟨min (d.nanos * n) max.nanos⟩

def minOf (a b : Duration) : Duration := ⟨min a.nanos b.nanos⟩

def maxOf (a b : Duration) : Duration := ⟨Nat.max a.nanos b.nanos⟩

def saturatingSub (a b : Duration) : Duration := ⟨a.nanos - b.nanos⟩

end Duration

/-! ## `std::net::Ipv4Addr` -/

structure Ipv4Addr where
  a : UInt8
  b : UInt8
  c : UInt8
  d : UInt8
deriving DecidableEq, Repr

namespace Ipv4Addr

def unspecified : Ipv4Addr := ⟨0, 0, 0, 0⟩

/-- `Display`: dotted decimal. -/
def toText (ip : Ipv4Addr) : String :=
  toString ip.a ++ "." ++ toString ip.b ++ "." ++ toString ip.c ++ "." ++
    toString ip.d

end Ipv4Addr

/-! ## Strings, as lists of characters -/

/-- A property of every entry, tested entry by entry. -/
theorem forall_mem_of_all {α : Type*} {p : α → Prop} [DecidablePred p] {l : List α}
    (h : l.all (fun a => decide (p a)) = true) : ∀ a ∈ l, p a :=
  fun a ha => of_decide_eq_true (List.all_eq_true.mp h a ha)

/-- Decimal value of a digit list. -/
def decimal (cs : List Char) : ℕ :=
  cs.foldl (fun n c => 10 * n + (c.toNat - '0'.toNat)) 0

/-- One octet of a dotted address: one to three digits, no leading zero, at
most 255. -/
def parseOctet (cs : List Char) : Option UInt8 :=
  if cs.isEmpty || 3 < cs.length || !cs.all Char.isDigit then none
  else if 1 < cs.length && cs.head? = some '0' then none
  else if 255 < decimal cs then none
  else some (UInt8.ofNat (decimal cs))

/-- Split at every occurrence of `sep`; never empty. -/
def splitChars (sep : Char) : List Char → List (List Char)
  | [] => [[]]
  | c :: cs =>
      if c = sep then [] :: splitChars sep cs
      else match splitChars sep cs with
        | [] => [[c]]
        | p :: ps => (c :: p) :: ps

/-- `str::parse::<Ipv4Addr>`. -/
def parseIpv4 (cs : List Char) : Option Ipv4Addr :=
  match splitChars '.' cs with
  | [w, x, y, z] => do
      let a ← parseOctet w
      let b ← parseOctet x
      let c ← parseOctet y
      let d ← parseOctet z
      some ⟨a, b, c, d⟩
  | _ => none

/-- `str::parse` at an unsigned type: an optional `+`, at least one digit, in
range. -/
def parseUnsigned (max : ℕ) (cs : List Char) : Option ℕ :=
  let digits := match cs with
    | '+' :: rest => rest
    | _ => cs
  if digits.isEmpty || !digits.all Char.isDigit then none
  else if max < decimal digits then none
  else some (decimal digits)

def parseU16 : List Char → Option ℕ := parseUnsigned 65535

def parseU64 : List Char → Option ℕ := parseUnsigned u64Max

/-- `str::rsplit_once`: the parts around the last `sep`. -/
def rsplitOnce (sep : Char) (cs : List Char) : Option (List Char × List Char) :=
  if sep ∈ cs then
    let after := (cs.reverse.takeWhile (· ≠ sep)).reverse
    some (cs.take (cs.length - after.length - 1), after)
  else none

/-- Unicode `White_Space`, what `str::trim` strips. -/
def isWhitespace (c : Char) : Bool :=
  let n := c.toNat
  (0x09 ≤ n && n ≤ 0x0d) || n = 0x20 || n = 0x85 || n = 0xa0 || n = 0x1680 ||
    (0x2000 ≤ n && n ≤ 0x200a) || n = 0x2028 || n = 0x2029 || n = 0x202f ||
    n = 0x205f || n = 0x3000

/-- `str::trim`. -/
def trim (cs : List Char) : List Char :=
  ((cs.dropWhile isWhitespace).reverse.dropWhile isWhitespace).reverse

/-- `{:02}` of a number. -/
def pad2 (n : ℕ) : String :=
  if n < 10 then "0" ++ toString n else toString n

example : parseIpv4 "10.0.3.2".toList = some ⟨10, 0, 3, 2⟩ := by decide
example : parseIpv4 "10.0.03.2".toList = none := by decide
example : rsplitOnce ':' "a:b:80".toList = some ("a:b".toList, "80".toList) := by
  decide

end GdutNet
