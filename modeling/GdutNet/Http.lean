import Mathlib.Data.List.TakeWhile
import GdutNet.Config
import GdutNet.Stream.Json

/-!
# HTTP/1.0 GET

The parsing half of `http.rs`: the address a URL is connected to and the
response read off the bytes that came back. Sockets are outside; what they
deliver is an argument.
-/

namespace GdutNet

/-! ## `std::net::SocketAddr` -/

inductive SocketAddr where
  | v4 (ip : Ipv4Addr) (port : ℕ)
  | v6 (groups : List ℕ) (scope port : ℕ)
deriving DecidableEq, Repr

def digitValue (c : Char) : ℕ :=
  if c.isDigit then c.toNat - '0'.toNat
  else if c.isLower then c.toNat - 'a'.toNat + 10
  else c.toNat - 'A'.toNat + 10

def isDigitOf (radix : ℕ) (c : Char) : Bool := c.isAlphanum && digitValue c < radix

/-- A number at the front of the input, read as far as digits go: at most
`digits` of them, leading zeros only where `zeros` allows them, at most `max`. -/
def readNumber (radix max : ℕ) (digits : Option ℕ) (zeros : Bool) (cs : List Char) :
    Option (ℕ × List Char) :=
  let ds := cs.takeWhile (isDigitOf radix)
  let value := ds.foldl (fun n c => radix * n + digitValue c) 0
  if ds.isEmpty || digits.any (· < ds.length) then none
  else if !zeros && ds.head? = some '0' && 1 < ds.length then none
  else if max < value then none
  else some (value, cs.drop ds.length)

def readPort (cs : List Char) : Option ℕ :=
  match cs with
  | ':' :: rest =>
      match readNumber 10 65535 none true rest with
      | some (port, []) => some port
      | _ => none
  | _ => none

/-- Four octets at the front of the input. -/
def readIpv4 (cs : List Char) : Option (Ipv4Addr × List Char) := do
  let (a, cs) ← readNumber 10 255 (some 3) false cs
  let (b, cs) ← (['.'].isPrefixOf? cs).bind (readNumber 10 255 (some 3) false)
  let (c, cs) ← (['.'].isPrefixOf? cs).bind (readNumber 10 255 (some 3) false)
  let (d, cs) ← (['.'].isPrefixOf? cs).bind (readNumber 10 255 (some 3) false)
  some (⟨.ofNat a, .ofNat b, .ofNat c, .ofNat d⟩, cs)

/-- Every group but the first follows a `:`. -/
def readAfter {α : Type} (first : Bool) (read : List Char → Option α) (cs : List Char) :
    Option α :=
  if first then read cs else ([':'].isPrefixOf? cs).bind read

/-- Up to `k` groups; the last two may be written as an IPv4 address. -/
def readGroups : ℕ → Bool → List Char → List ℕ × Bool × List Char
  | 0, _, cs => ([], false, cs)
  | k + 1, first, cs =>
      match if 1 ≤ k then readAfter first readIpv4 cs else none with
      | some (ip, rest) =>
          ([256 * ip.a.toNat + ip.b.toNat, 256 * ip.c.toNat + ip.d.toNat], true, rest)
      | none =>
          match readAfter first (readNumber 16 65535 (some 4) true) cs with
          | none => ([], false, cs)
          | some (group, rest) =>
              let (groups, v4, rest) := readGroups k false rest
              (group :: groups, v4, rest)

def readIpv6 (cs : List Char) : Option (List ℕ × List Char) :=
  let (head, v4, rest) := readGroups 8 true cs
  if head.length = 8 then some (head, rest)
  else if v4 then none
  else match rest with
    | ':' :: ':' :: rest =>
        let (last, _, rest) := readGroups (7 - head.length) true rest
        some (head ++ List.replicate (8 - head.length - last.length) 0 ++ last, rest)
    | _ => none

/-- `a.b.c.d:port`; an address holds no colon. -/
def parseSocketAddrV4 (cs : List Char) : Option SocketAddr := do
  let ip ← parseIpv4 (cs.takeWhile (· ≠ ':'))
  let port ← readPort (cs.dropWhile (· ≠ ':'))
  some (.v4 ip port)

/-- `[groups%scope]:port`. -/
def parseSocketAddrV6 (cs : List Char) : Option SocketAddr := do
  let (groups, rest) ← (['['].isPrefixOf? cs).bind readIpv6
  let (scope, rest) :=
    ((['%'].isPrefixOf? rest).bind (readNumber 10 u32Max none true)).getD (0, rest)
  let port ← ([']'].isPrefixOf? rest).bind readPort
  some (.v6 groups scope port)

/-- `str::parse::<SocketAddr>`. -/
def parseSocketAddr (cs : List Char) : Option SocketAddr :=
  (parseSocketAddrV4 cs).or (parseSocketAddrV6 cs)

/-- `target_address`: no name is ever resolved. -/
def targetAddress (url : String) : Except String (Target × SocketAddr) :=
  match parseUrl url with
  | none => .error "Unsupported URL (http only)"
  | some target =>
      match parseSocketAddr (target.host ++ ':' :: (toString target.port).toList) with
      | none => .error ("Bad host in URL: " ++ String.ofList target.host)
      | some addr => .ok (target, addr)

example : parseSocketAddr "10.0.3.2:801".toList = some (.v4 ⟨10, 0, 3, 2⟩ 801) := by decide
example : parseSocketAddr "[fe80::1%4]:80".toList =
    some (.v6 [0xfe80, 0, 0, 0, 0, 0, 0, 1] 4 80) := by decide
example : parseSocketAddr "[::ffff:10.0.3.2]:80".toList =
    some (.v6 [0, 0, 0, 0, 0, 0xffff, 0x0a00, 0x0302] 0 80) := by decide
example : parseSocketAddr "example.com:80".toList = none := by decide

/-! ### An accepted probe target is an address -/

theorem mem_splitChars (sep : Char) {c : Char} {cs : List Char} (h : c ∈ cs) :
    c = sep ∨ ∃ p ∈ splitChars sep cs, c ∈ p := by
  induction cs with
  | nil => cases h
  | cons d cs ih =>
      unfold splitChars
      split
      · rename_i hd
        rcases List.mem_cons.mp h with rfl | h
        · exact .inl hd
        · exact (ih h).imp_right fun ⟨p, hp, hc⟩ => ⟨p, List.mem_cons_of_mem _ hp, hc⟩
      · split
        · rename_i hnil
          rcases List.mem_cons.mp h with rfl | h
          · exact .inr ⟨[c], by simp, by simp⟩
          · rcases ih h with hsep | ⟨p, hp, _⟩
            · exact .inl hsep
            · simp [hnil] at hp
        · rename_i q qs hsplit
          rcases List.mem_cons.mp h with rfl | h
          · exact .inr ⟨c :: q, by simp, by simp⟩
          · rcases ih h with hsep | ⟨p, hp, hc⟩
            · exact .inl hsep
            · rw [hsplit] at hp
              rcases List.mem_cons.mp hp with rfl | hp
              · exact .inr ⟨d :: p, by simp, by simp [hc]⟩
              · exact .inr ⟨p, by simp [hp], hc⟩

theorem parseOctet_digits {cs : List Char} {b : UInt8} (h : parseOctet cs = some b) :
    ∀ c ∈ cs, c.isDigit = true := by
  unfold parseOctet at h
  split at h
  · cases h
  · rename_i hok
    simp only [Bool.or_eq_true, not_or, Bool.not_eq_true', Bool.not_eq_false] at hok
    exact List.all_eq_true.mp hok.2

/-- An IPv4 literal holds digits and dots. -/
theorem mem_parseIpv4 {cs : List Char} {ip : Ipv4Addr} (h : parseIpv4 cs = some ip) {e : Char}
    (he : e ∈ cs) : e = '.' ∨ e.isDigit = true := by
  refine (mem_splitChars '.' he).imp_right fun ⟨p, hp, hmem⟩ => ?_
  unfold parseIpv4 at h
  split at h
  · rename_i w x y z hsplit
    simp only [Option.bind_eq_bind, Option.bind_eq_some_iff] at h
    obtain ⟨a, ha, b, hb, c, hc, d, hd, _⟩ := h
    have hdigits : ∀ q ∈ [w, x, y, z], ∀ e ∈ q, e.isDigit = true := by
      simp only [List.forall_mem_cons]
      exact ⟨parseOctet_digits ha, parseOctet_digits hb, parseOctet_digits hc,
        parseOctet_digits hd, by simp⟩
    exact hdigits p (hsplit ▸ hp) e hmem
  · cases h

theorem colon_notMem_of_parseIpv4 {cs : List Char} {ip : Ipv4Addr}
    (h : parseIpv4 cs = some ip) : ':' ∉ cs := by
  intro hmem
  rcases mem_parseIpv4 h hmem with hdot | hdigit
  · cases hdot
  · revert hdigit
    decide

theorem isDigitOf_ten {c : Char} (h : c.isDigit = true) :
    isDigitOf 10 c = true ∧ digitValue c = c.toNat - '0'.toNat := by
  have hval : digitValue c = c.toNat - '0'.toNat := by simp [digitValue, h]
  refine ⟨?_, hval⟩
  simp only [isDigitOf, Char.isAlphanum, h, Bool.or_true, Bool.true_and, hval, decide_eq_true_eq]
  simp only [Char.isDigit, Bool.and_eq_true, decide_eq_true_eq] at h
  have hle : c.toNat ≤ 57 := h.2
  show c.toNat - 48 < 10
  omega

/-- A port prints and reads back. -/
theorem readPort_toString {port : ℕ} (h : port ≤ 65535) :
    readPort (':' :: (toString port).toList) = some port := by
  have hdigits : ∀ c ∈ Nat.toDigits 10 port, c.isDigit = true := fun c hc =>
    Nat.isDigit_of_mem_toDigits (by decide) (by decide) hc
  have htake : (Nat.toDigits 10 port).takeWhile (isDigitOf 10) = Nat.toDigits 10 port :=
    List.takeWhile_eq_self_iff.mpr fun c hc => (isDigitOf_ten (hdigits c hc)).1
  have hvalue : (Nat.toDigits 10 port).foldl (fun n c => 10 * n + digitValue c) 0 = port :=
    calc _ = Nat.ofDigitChars 10 (Nat.toDigits 10 port) 0 := by
          rw [Nat.ofDigitChars_eq_foldl]
          exact List.foldl_ext _ _ _ fun n c hc => by rw [(isDigitOf_ten (hdigits c hc)).2]
      _ = port := Nat.ofDigitChars_ten_toDigits
  have hread : readNumber 10 65535 none true (Nat.toDigits 10 port) = some (port, []) := by
    simp only [readNumber, htake, hvalue]
    simp [Nat.toDigits_ne_nil, Nat.not_lt.mpr h]
  rw [Json.toList_toString, readPort, hread]

theorem parseU16_le {cs : List Char} {n : ℕ} (h : parseU16 cs = some n) : n ≤ 65535 := by
  have hdigits (digits : List Char) (h : (if digits.isEmpty || !digits.all Char.isDigit then none
      else if 65535 < decimal digits then none else some (decimal digits)) = some n) :
      n ≤ 65535 := by
    split at h
    · cases h
    · split at h
      · cases h
      · rename_i hle
        obtain rfl := Option.some.inj h
        exact Nat.not_lt.mp hle
  exact hdigits _ h

theorem parseUrl_port {url : String} {t : Target} (h : parseUrl url = some t) :
    t.port ≤ 65535 := by
  unfold parseUrl at h
  simp only [Option.bind_eq_bind, Option.bind_eq_some_iff] at h
  obtain ⟨rest, _, h⟩ := h
  split at h
  · cases h
  · split at h
    · obtain ⟨x, hx, h⟩ := Option.bind_eq_some_iff.mp h
      obtain ⟨port, hport, rfl⟩ := Option.map_eq_some_iff.mp hx
      split at h
      · cases h
      · obtain rfl := Option.some.inj h
        exact parseU16_le hport
    · rw [Option.bind_some] at h
      split at h
      · cases h
      · obtain rfl := Option.some.inj h
        exact (by decide : 80 ≤ 65535)

/-- The probe target and the address that is connected to are the same. -/
theorem targetAddress_of_probe {url : String} {ip : Ipv4Addr} {text : String}
    (h : parseHttpProbeTarget url = some (ip, text)) :
    ∃ t, targetAddress url = .ok (t, .v4 ip t.port) ∧
      text = String.ofList t.host ++ ":" ++ toString t.port := by
  simp only [parseHttpProbeTarget, Option.bind_eq_bind, Option.bind_eq_some_iff] at h
  obtain ⟨t, ht, ip', hip, heq⟩ := h
  simp only [Option.some.injEq, Prod.mk.injEq] at heq
  obtain ⟨rfl, rfl⟩ := heq
  refine ⟨t, ?_, rfl⟩
  have hcolon := colon_notMem_of_parseIpv4 hip
  have hne : ∀ c ∈ t.host, (decide (c ≠ ':')) = true := by
    intro c hc
    simp only [ne_eq, decide_not, Bool.not_eq_true', decide_eq_false_iff_not]
    rintro rfl
    exact hcolon hc
  have htake : (t.host ++ ':' :: (toString t.port).toList).takeWhile (· ≠ ':') = t.host := by
    rw [List.takeWhile_append_of_pos hne]
    simp
  have hdrop : (t.host ++ ':' :: (toString t.port).toList).dropWhile (· ≠ ':') =
      ':' :: (toString t.port).toList := by
    rw [List.dropWhile_append_of_pos hne]
    simp
  simp only [targetAddress, ht, parseSocketAddr, parseSocketAddrV4, htake, hdrop, hip,
    readPort_toString (parseUrl_port ht), Option.bind_eq_bind, Option.bind_some, Option.some_or]

/-! ## Responses -/

theorem toNat_ofNat {n : ℕ} (h : n.isValidChar) : (Char.ofNat n).toNat = n := by
  rw [Char.ofNat, dif_pos h]
  rfl

def continuation (b : UInt8) : Bool := 0x80 ≤ b && b ≤ 0xbf

/-- Second byte of a three or four byte sequence, by its first. -/
def secondByte (first second : UInt8) : Bool :=
  if first = 0xe0 then 0xa0 ≤ second && second ≤ 0xbf
  else if first = 0xed then 0x80 ≤ second && second ≤ 0x9f
  else if first = 0xf0 then 0x90 ≤ second && second ≤ 0xbf
  else if first = 0xf4 then 0x80 ≤ second && second ≤ 0x8f
  else continuation second

/-- What the bytes after `first` have to satisfy; none where `first` starts no
sequence. -/
def followers (first : UInt8) : List (UInt8 → Bool) :=
  if 0xc2 ≤ first && first ≤ 0xdf then [continuation]
  else if 0xe0 ≤ first && first ≤ 0xef then [secondByte first, continuation]
  else if 0xf0 ≤ first && first ≤ 0xf4 then [secondByte first, continuation, continuation]
  else []

/-- How many followers are there, up to the first that is wrong or missing. -/
def present : List (UInt8 → Bool) → List UInt8 → ℕ
  | check :: checks, b :: bs => if check b then present checks bs + 1 else 0
  | _, _ => 0

def leadBits (first : UInt8) : ℕ :=
  if first ≤ 0xdf then first.toNat % 32
  else if first ≤ 0xef then first.toNat % 16
  else first.toNat % 8

/-- The next character and the bytes after it: U+FFFD for the longest valid
start of a broken sequence. -/
def decodeLossy (first : UInt8) (rest : List UInt8) : Char × List UInt8 :=
  let n := present (followers first) rest
  if first < 0x80 then (.ofNat first.toNat, rest)
  else if followers first ≠ [] && n = (followers first).length then
    (.ofNat ((rest.take n).foldl (fun v b => v * 64 + b.toNat % 64) (leadBits first)),
      rest.drop n)
  else ('\uFFFD', rest.drop n)

/-- `String::from_utf8_lossy`, at most `k` characters. -/
def lossyChars : ℕ → List UInt8 → List Char
  | k + 1, first :: rest =>
      (decodeLossy first rest).1 :: lossyChars k (decodeLossy first rest).2
  | _, _ => []

/-- A character takes at least one byte. -/
def fromUtf8Lossy (bs : List UInt8) : List Char := lossyChars bs.length bs

/-- `str::split_once`. -/
def splitOnce (sep : List Char) : List Char → Option (List Char × List Char)
  | [] => if sep.isEmpty then some ([], []) else none
  | c :: cs =>
      match sep.isPrefixOf? (c :: cs) with
      | some rest => some ([], rest)
      | none => (splitOnce sep cs).map (fun parts => (c :: parts.1, parts.2))

/-- `split("\r\n")`; never empty. -/
def splitLines : List Char → List (List Char)
  | [] => [[]]
  | c :: cs =>
      match c, cs with
      | '\r', '\n' :: cs => [] :: splitLines cs
      | c, cs =>
          match splitLines cs with
          | [] => [[c]]
          | p :: ps => (c :: p) :: ps

def isAsciiWhitespace (c : Char) : Bool :=
  c = ' ' || c = '\t' || c = '\n' || c = '\r' || c.toNat = 0x0c

/-- `HTTP/1.0 302 Found`, `HTTP/2 200`: the second word, a `u16`. -/
def parseStatusCode (line : List Char) : Option ℕ :=
  match (line.splitOnP isAsciiWhitespace).filter (!·.isEmpty) with
  | version :: code :: _ =>
      if "HTTP/".toList.isPrefixOf version then parseU16 code else none
  | _ => none

structure Response where
  status : ℕ
  locationLower : String
  body : String
deriving DecidableEq, Repr

/-- The value of a `Location` header line. -/
def locationLine (line : List Char) : Option (List Char) := do
  let (key, value) ← splitOnce [':'] line
  if (trim key).map Char.toLower = "location".toList then some ((trim value).map Char.toLower)
  else none

def response (buf : List UInt8) : Except String Response :=
  match splitOnce "\r\n\r\n".toList (fromUtf8Lossy buf) with
  | none => .error "Incomplete HTTP response headers"
  | some (headers, body) =>
      match parseStatusCode ((splitLines headers).headD []) with
      | none => .error "Malformed HTTP status line"
      | some status =>
          .ok { status
                locationLower :=
                  String.ofList (((splitLines headers).tail.findSome? locationLine).getD [])
                body := String.ofList body }

/-- `get_async` under the `Complete` policy: `received` is what the peer sent
until it closed, `none` any failure on the way or the deadline. Reading stops at
`maxBytes`. -/
def getComplete (maxBytes : ℕ) (received : Option (List UInt8)) : Option Response :=
  received.bind fun bytes => (response (bytes.take maxBytes)).toOption

example : fromUtf8Lossy [0x41, 0xe4, 0xbd, 0xa0, 0xe4, 0xbd, 0x41, 0xff] =
    ['A', '你', '\uFFFD', 'A', '\uFFFD'] := by decide
example : parseStatusCode "HTTP/1.0 302 Found".toList = some 302 := by decide

end GdutNet
