import GdutNet.Http.Lossy
import Mathlib.Data.List.Infix
import Mathlib.Data.Nat.Find

/-!
# Reading a response

The read loops of `get` and `get_async`, which are written twice in `http.rs`. What
the peer sends arrives in packets and ends with EOF or a read error; a read returns
what its packet has, up to its limit. The deadline enters where the source looks at
it: before every read in `get`, around the whole of `get_async`.
-/

namespace GdutNet

inductive ReadPolicy where
  | complete
  | acceptPartial
deriving DecidableEq, Repr

def readAcceptable (policy : ReadPolicy) (readOk gotBytes : Bool) : Bool :=
  readOk || (policy = .acceptPartial && gotBytes)

/-- `"\r\n\r\n"`. -/
def blankLine : List UInt8 := [0x0d, 0x0a, 0x0d, 0x0a]

/-- `windows(4)`: some four bytes in a row are a blank line. -/
def headersComplete (buf : List UInt8) : Bool :=
  buf.tails.any fun window => window.take 4 = blankLine

inductive StreamEnd where
  | eof
  | error
deriving DecidableEq, Repr

/-- What the peer sends: packets of at least one byte, and how it ends. -/
structure Incoming where
  packets : List (List UInt8)
  ending : StreamEnd
  nonempty : ∀ p ∈ packets, p ≠ []

namespace Incoming

def bytes (s : Incoming) : List UInt8 := s.packets.flatten

/-- What is left once the first packet has been read up to `limit`. -/
def afterRead (s : Incoming) (limit : ℕ) : Incoming :=
  match h : s.packets with
  | [] => s
  | p :: ps =>
      have hps : ∀ q ∈ ps, q ≠ [] := fun q hq => s.nonempty q (h ▸ List.mem_cons_of_mem p hq)
      if hrest : p.drop limit = [] then { s with packets := ps, nonempty := hps }
      else
        { s with packets := p.drop limit :: ps
                 nonempty := List.forall_mem_cons.mpr ⟨hrest, hps⟩ }

/-- `read` into `limit` bytes: never more than one packet, and `Ok(0)` at EOF. -/
def read (s : Incoming) (limit : ℕ) : Except Unit (List UInt8) :=
  match s.packets with
  | [] => if s.ending = .eof then .ok [] else .error ()
  | p :: _ => .ok (p.take limit)

/-- A read finds the end, or some first bytes of the stream. -/
inductive Found (s : Incoming) (limit : ℕ) : Except Unit (List UInt8) → Prop
  | eof (hend : s.ending = .eof) (hbytes : s.bytes = []) : Found s limit (.ok [])
  | failed (hend : s.ending = .error) (hbytes : s.bytes = []) : Found s limit (.error ())
  | chunk {b : UInt8} {bs : List UInt8} (hlen : (b :: bs).length ≤ limit)
      (hbytes : s.bytes = (b :: bs) ++ (s.afterRead limit).bytes)
      (hend : (s.afterRead limit).ending = s.ending) : Found s limit (.ok (b :: bs))

theorem read_found (s : Incoming) {limit : ℕ} (hlimit : 0 < limit) :
    s.Found limit (s.read limit) := by
  obtain ⟨packets, ending, nonempty⟩ := s
  cases packets with
  | nil =>
      cases ending with
      | eof => exact .eof rfl rfl
      | error => exact .failed rfl rfl
  | cons p ps =>
      obtain ⟨hp, -⟩ := List.forall_mem_cons.mp nonempty
      cases p with
      | nil => exact absurd rfl hp
      | cons b bs =>
          obtain ⟨limit, rfl⟩ : ∃ m, limit = m + 1 := ⟨limit - 1, by omega⟩
          refine .chunk ?_ ?_ ?_
          · simp
          · simp only [bytes, afterRead, List.drop_succ_cons]
            split
            · rename_i hnil
              have hall : bs.take limit = bs := List.take_of_length_le (List.drop_eq_nil_iff.mp hnil)
              rw [hall]
              rfl
            · simp [← List.append_assoc, List.take_append_drop]
          · simp only [afterRead]
            split <;> rfl

end Incoming

namespace Transport

def chunkSize : ℕ := 4096

/-- The read loop of `get`. `inTime n` says whether the deadline is still ahead at
the read that finds `n` bytes in the buffer. -/
def getLoop (policy : ReadPolicy) (maxBytes : ℕ) (inTime : ℕ → Bool) (s : Incoming)
    (buf : List UInt8) : Except String (List UInt8) :=
  if buf.length < maxBytes then
    let limit := min (maxBytes - buf.length) chunkSize
    let read := if inTime buf.length then s.read limit else .error ()
    match read with
    | .ok [] => .ok buf
    | .ok (b :: bs) =>
        let buf := buf ++ b :: bs
        if policy = .acceptPartial && headersComplete buf then .ok buf
        else getLoop policy maxBytes inTime (s.afterRead limit) buf
    | .error () =>
        if !readAcceptable policy false !buf.isEmpty then .error "read response failed"
        else .ok buf
  else .ok buf
termination_by maxBytes - buf.length
decreasing_by
  simp only [List.length_append, List.length_cons]
  omega

/-- `get` from the first read on. -/
def get (policy : ReadPolicy) (maxBytes : ℕ) (inTime : ℕ → Bool) (s : Incoming) :
    Except String Response :=
  match getLoop policy maxBytes inTime s [] with
  | .ok buf => response buf
  | .error e => .error e

/-- The read loop of `get_async`. -/
def getAsyncLoop (policy : ReadPolicy) (maxBytes : ℕ) (s : Incoming) (buf : List UInt8) :
    Except String (List UInt8) :=
  if buf.length < maxBytes then
    let limit := min (maxBytes - buf.length) chunkSize
    match s.read limit with
    | .ok [] => .ok buf
    | .ok (b :: bs) =>
        let buf := buf ++ b :: bs
        if policy = .acceptPartial && headersComplete buf then .ok buf
        else getAsyncLoop policy maxBytes (s.afterRead limit) buf
    | .error () =>
        if !readAcceptable policy false !buf.isEmpty then .error "read response failed"
        else .ok buf
  else .ok buf
termination_by maxBytes - buf.length
decreasing_by
  simp only [List.length_append, List.length_cons]
  omega

/-- `get_async` from the first read on; `expired` says that the deadline came
first. -/
def getAsync (policy : ReadPolicy) (maxBytes : ℕ) (expired : Bool) (s : Incoming) :
    Except String Response :=
  if expired then .error "HTTP request deadline exceeded"
  else match getAsyncLoop policy maxBytes s [] with
    | .ok buf => response buf
    | .error e => .error e

/-! ## Two copies of one loop -/

theorem getLoop_eq (policy : ReadPolicy) (maxBytes : ℕ) {inTime : ℕ → Bool}
    (htime : ∀ n, inTime n = true) (s : Incoming) (buf : List UInt8) :
    getLoop policy maxBytes inTime s buf = getAsyncLoop policy maxBytes s buf := by
  induction hn : maxBytes - buf.length using Nat.strong_induction_on generalizing s buf with
  | _ n ih =>
      rw [getLoop, getAsyncLoop]
      simp only [htime, ↓reduceIte]
      split
      · cases s.read (min (maxBytes - buf.length) chunkSize) with
        | error u => rfl
        | ok chunk =>
            cases chunk with
            | nil => rfl
            | cons b bs =>
                dsimp only
                split
                · rfl
                · refine ih _ ?_ _ _ rfl
                  simp only [List.length_append, List.length_cons]
                  omega
      · rfl

/-! ## What the loop leaves in the buffer -/

/-- The buffer after the loop, when `all` is sent and ends with `ending`: everything up
to the limit, a part of it with complete headers, or nothing but an error. -/
inductive Fetched (policy : ReadPolicy) (maxBytes : ℕ) (all : List UInt8) (ending : StreamEnd) :
    Except String (List UInt8) → Prop
  | whole {buf : List UInt8} (hall : buf = all.take maxBytes)
      (hwhy : ending = .eof ∨ maxBytes ≤ all.length ∨ policy = .acceptPartial) :
      Fetched policy maxBytes all ending (.ok buf)
  | early {buf : List UInt8} (hpolicy : policy = .acceptPartial)
      (hfront : buf <+: all.take maxBytes) (hdone : headersComplete buf = true) :
      Fetched policy maxBytes all ending (.ok buf)
  | failed (hend : ending = .error) (hshort : all.length < maxBytes)
      (hpolicy : policy = .complete ∨ all = []) :
      Fetched policy maxBytes all ending (.error "read response failed")

theorem getAsyncLoop_fetched (policy : ReadPolicy) {maxBytes : ℕ} (s : Incoming)
    {buf : List UInt8} (hbuf : buf.length ≤ maxBytes) :
    Fetched policy maxBytes (buf ++ s.bytes) s.ending (getAsyncLoop policy maxBytes s buf) := by
  induction hn : maxBytes - buf.length using Nat.strong_induction_on generalizing s buf with
  | _ n ih =>
      rw [getAsyncLoop]
      split
      · rename_i hroom
        have hlimit : 0 < min (maxBytes - buf.length) chunkSize := by
          have : 0 < chunkSize := by decide
          omega
        have hfound := s.read_found hlimit
        have hmax := Nat.min_le_left (maxBytes - buf.length) chunkSize
        dsimp only
        generalize min (maxBytes - buf.length) chunkSize = limit at hfound hmax ⊢
        generalize s.read limit = read at hfound ⊢
        have hwhole : s.bytes = [] → buf = (buf ++ s.bytes).take maxBytes := by
          intro hnil
          rw [hnil, List.append_nil, List.take_of_length_le hbuf]
        cases hfound with
        | eof hend hbytes => exact .whole (hwhole hbytes) (.inl hend)
        | failed hend hbytes =>
            dsimp only
            split
            · rename_i hrefused
              refine .failed hend (by rw [hbytes, List.append_nil]; exact hroom) ?_
              rw [hbytes, List.append_nil]
              cases policy with
              | complete => exact .inl rfl
              | acceptPartial => exact .inr (by simpa [readAcceptable] using hrefused)
            · rename_i haccepted
              refine .whole (hwhole hbytes) (.inr (.inr ?_))
              cases policy with
              | complete => simp [readAcceptable] at haccepted
              | acceptPartial => rfl
        | @chunk b bs hlen hbytes hend =>
            dsimp only
            have hlen' : (buf ++ b :: bs).length ≤ maxBytes := by
              rw [List.length_append]
              omega
            have hall : buf ++ s.bytes = (buf ++ b :: bs) ++ (s.afterRead limit).bytes := by
              rw [hbytes, List.append_assoc]
            rw [hall]
            split
            · rename_i hdone
              simp only [Bool.and_eq_true, decide_eq_true_eq] at hdone
              refine .early hdone.1 ?_ hdone.2
              rw [List.prefix_take_iff]
              exact ⟨List.prefix_append _ _, hlen'⟩
            · rw [← hend]
              refine ih _ ?_ _ hlen' rfl
              rw [List.length_append, List.length_cons]
              omega
      · rename_i hfull
        refine .whole ?_ (.inr (.inl ?_))
        · rw [List.take_append_of_le_length (by omega), List.take_of_length_le hbuf]
        · rw [List.length_append]
          omega

/-! ## Complete headers -/

/-- `head` stands before the first blank line, `tail` behind it. -/
structure Headers (bs head tail : List UInt8) : Prop where
  eq : bs = head ++ (blankLine ++ tail)
  first : ∀ head' tail', bs = head' ++ (blankLine ++ tail') → head.length ≤ head'.length

theorem headersComplete_iff {bs : List UInt8} :
    headersComplete bs = true ↔ ∃ head tail, bs = head ++ (blankLine ++ tail) := by
  simp only [headersComplete, List.any_eq_true, decide_eq_true_eq, List.mem_tails]
  constructor
  · rintro ⟨window, ⟨head, rfl⟩, hwindow⟩
    exact ⟨head, window.drop 4, by rw [← hwindow, List.take_append_drop]⟩
  · rintro ⟨head, tail, rfl⟩
    exact ⟨blankLine ++ tail, List.suffix_append _ _, rfl⟩

theorem exists_headers {bs : List UInt8} (h : ∃ head tail, bs = head ++ (blankLine ++ tail)) :
    ∃ head tail, Headers bs head tail := by
  have hlen : ∃ n, ∃ head tail, bs = head ++ (blankLine ++ tail) ∧ head.length = n := by
    obtain ⟨head, tail, hbs⟩ := h
    exact ⟨_, head, tail, hbs, rfl⟩
  classical
  obtain ⟨head, tail, hbs, hn⟩ := Nat.find_spec hlen
  refine ⟨head, tail, hbs, fun head' tail' hbs' => ?_⟩
  rw [hn]
  exact Nat.find_min' hlen ⟨head', tail', hbs', rfl⟩

/-- More bytes do not move the first blank line. -/
theorem Headers.append {bs head tail : List UInt8} (h : Headers bs head tail)
    (more : List UInt8) : Headers (bs ++ more) head (tail ++ more) := by
  refine ⟨by rw [h.eq]; simp, fun head' tail' hbs' => ?_⟩
  by_contra hshort
  have hlen : (head' ++ blankLine).length ≤ bs.length := by
    rw [h.eq]
    simp only [List.length_append] at hshort ⊢
    omega
  have hpre : head' ++ blankLine <+: bs := by
    refine List.prefix_of_prefix_length_le ?_ (List.prefix_append bs more) hlen
    rw [hbs', ← List.append_assoc]
    exact List.prefix_append _ _
  obtain ⟨tail'', htail⟩ := hpre
  exact hshort (h.first head' tail'' (by rw [← htail, List.append_assoc]))

/-- `split_once` cuts at the first separator. -/
theorem splitOnce_eq {sep cs head tail : List Char} (hcs : cs = head ++ (sep ++ tail))
    (hfirst : ∀ head' tail', cs = head' ++ (sep ++ tail') → head.length ≤ head'.length) :
    splitOnce sep cs = some (head, tail) := by
  induction head generalizing cs with
  | nil =>
      subst hcs
      cases hsep : sep ++ tail with
      | nil =>
          obtain ⟨rfl, rfl⟩ := List.append_eq_nil_iff.mp hsep
          rfl
      | cons c rest =>
          have hpre : sep.isPrefixOf? (c :: rest) = some tail :=
            List.isPrefixOf?_eq_some_iff_append_eq.mpr hsep
          rw [List.nil_append, splitOnce, hpre]
  | cons c head ih =>
      subst hcs
      have hno : sep.isPrefixOf? (c :: (head ++ (sep ++ tail))) = none := by
        by_contra hyes
        obtain ⟨tail', htail⟩ := Option.ne_none_iff_exists'.mp hyes
        have := hfirst [] tail' (List.isPrefixOf?_eq_some_iff_append_eq.mp htail).symm
        simp at this
      have hrest : splitOnce sep (head ++ (sep ++ tail)) = some (head, tail) := by
        refine ih rfl fun head' tail' heq => ?_
        have := hfirst (c :: head') tail' (by rw [List.cons_append, List.cons_append, heq])
        simpa using this
      rw [List.cons_append, splitOnce, hno, hrest]
      rfl

theorem splitOnce_some {sep cs head tail : List Char} (h : splitOnce sep cs = some (head, tail)) :
    cs = head ++ (sep ++ tail) := by
  induction cs generalizing head with
  | nil =>
      unfold splitOnce at h
      split at h
      · rename_i hsep
        rw [List.isEmpty_iff] at hsep
        cases h
        simp [hsep]
      · cases h
  | cons c cs ih =>
      rw [splitOnce] at h
      split at h
      · rename_i rest hpre
        cases h
        exact (List.isPrefixOf?_eq_some_iff_append_eq.mp hpre).symm
      · obtain ⟨⟨head', tail'⟩, hrest, heq⟩ := Option.map_eq_some_iff.mp h
        cases heq
        rw [ih hrest, List.cons_append]

theorem blankLine_ascii : Ascii blankLine := by decide

theorem asciiText_blankLine : asciiText blankLine = "\r\n\r\n".toList := by decide

/-- **The text is cut where the bytes are.** -/
theorem splitOnce_lossy {bs head tail : List UInt8} (h : Headers bs head tail) :
    splitOnce "\r\n\r\n".toList (fromUtf8Lossy bs) =
      some (fromUtf8Lossy head, fromUtf8Lossy tail) := by
  rw [← asciiText_blankLine]
  refine splitOnce_eq ?_ fun before after hbefore => ?_
  · rw [h.eq, fromUtf8Lossy_append_sep blankLine_ascii (by decide)]
  · obtain ⟨xs, ys, hbs, rfl, -⟩ := ascii_infix_of_text blankLine_ascii (by decide) hbefore
    have hle := h.first xs ys hbs
    have hxs : xs <+: bs := ⟨_, hbs.symm⟩
    rcases Nat.eq_or_lt_of_le hle with heq | hlt
    · have hhead : head <+: bs := ⟨_, h.eq.symm⟩
      rw [(List.prefix_of_prefix_length_le hhead hxs hle).eq_of_length heq]
    · -- then `xs` holds the whole head and its `\r`, which decodes to one more character
      have hmore : head ++ [0x0d] <+: bs :=
        ⟨0x0a :: 0x0d :: 0x0a :: tail, by rw [h.eq]; simp [blankLine]⟩
      obtain ⟨zs, rfl⟩ := List.prefix_of_prefix_length_le hmore hxs
        (by rw [List.length_append, List.length_singleton]; exact hlt)
      rw [List.append_assoc, List.singleton_append, fromUtf8Lossy_append _ _ (by decide)]
      simp

theorem splitOnce_lossy_none {bs : List UInt8} (h : headersComplete bs = false) :
    splitOnce "\r\n\r\n".toList (fromUtf8Lossy bs) = none := by
  by_contra hyes
  obtain ⟨⟨before, after⟩, hsplit⟩ := Option.ne_none_iff_exists'.mp hyes
  have htext := splitOnce_some hsplit
  rw [← asciiText_blankLine] at htext
  obtain ⟨xs, ys, hbs, -, -⟩ := ascii_infix_of_text blankLine_ascii (by decide) htext
  rw [headersComplete_iff.mpr ⟨xs, ys, hbs⟩] at h
  cases h

/-! ## What a response depends on -/

/-- The status of a header block. -/
def statusOf (head : List UInt8) : Option ℕ :=
  parseStatusCode ((splitLines (fromUtf8Lossy head)).headD [])

def locationOf (head : List UInt8) : String :=
  String.ofList (((splitLines (fromUtf8Lossy head)).tail.findSome? locationLine).getD [])

theorem response_of_headers {bs head tail : List UInt8} (h : Headers bs head tail) :
    response bs = match statusOf head with
      | none => .error "Malformed HTTP status line"
      | some status => .ok ⟨status, locationOf head, String.ofList (fromUtf8Lossy tail)⟩ := by
  unfold response
  rw [splitOnce_lossy h]
  rfl

theorem response_incomplete {bs : List UInt8} (h : headersComplete bs = false) :
    response bs = .error "Incomplete HTTP response headers" := by
  unfold response
  rw [splitOnce_lossy_none h]

/-- What a probe looks at in an answer. -/
def summary (res : Except String Response) : Option (ℕ × String) :=
  res.toOption.map fun r => (r.status, r.locationLower)

/-- A buffer with complete headers answers as any longer one does. -/
theorem summary_prefix {buf all : List UInt8} (hfront : buf <+: all)
    (hdone : headersComplete buf = true) : summary (response buf) = summary (response all) := by
  obtain ⟨more, rfl⟩ := hfront
  obtain ⟨head, tail, hheaders⟩ := exists_headers (headersComplete_iff.mp hdone)
  rw [response_of_headers hheaders, response_of_headers (hheaders.append more)]
  cases statusOf head <;> rfl

/-- An answer is read exactly from complete headers with a status. -/
theorem response_ok_iff {bs : List UInt8} : (∃ r, response bs = .ok r) ↔
    ∃ head tail status, Headers bs head tail ∧ statusOf head = some status := by
  constructor
  · rintro ⟨r, h⟩
    cases hdone : headersComplete bs with
    | false =>
        rw [response_incomplete hdone] at h
        cases h
    | true =>
        obtain ⟨head, tail, hheaders⟩ := exists_headers (headersComplete_iff.mp hdone)
        rw [response_of_headers hheaders] at h
        cases hstatus : statusOf head with
        | none =>
            rw [hstatus] at h
            cases h
        | some status => exact ⟨head, tail, status, hheaders, hstatus⟩
  · rintro ⟨head, tail, status, hheaders, hstatus⟩
    rw [response_of_headers hheaders, hstatus]
    exact ⟨_, rfl⟩

/-! ## The two policies -/

theorem fetched (policy : ReadPolicy) (maxBytes : ℕ) (s : Incoming) :
    Fetched policy maxBytes s.bytes s.ending (getAsyncLoop policy maxBytes s []) :=
  getAsyncLoop_fetched policy s (show [].length ≤ maxBytes from Nat.zero_le _)

theorem get_eq (policy : ReadPolicy) (maxBytes : ℕ) {inTime : ℕ → Bool}
    (htime : ∀ n, inTime n = true) (s : Incoming) :
    get policy maxBytes inTime s = getAsync policy maxBytes false s := by
  rw [get, getAsync, getLoop_eq policy maxBytes htime]
  rfl

/-- `AcceptPartial` tells a probe what all of the received bytes tell it. -/
theorem acceptPartial_summary (maxBytes : ℕ) (s : Incoming) :
    summary (getAsync .acceptPartial maxBytes false s) =
      summary (response (s.bytes.take maxBytes)) := by
  have hfetched := fetched .acceptPartial maxBytes s
  unfold getAsync
  generalize getAsyncLoop .acceptPartial maxBytes s [] = read at hfetched ⊢
  cases hfetched with
  | whole hall hwhy => rw [hall]; rfl
  | early hpolicy hfront hdone => exact summary_prefix hfront hdone
  | failed hend hshort hpolicy =>
      obtain hnil := hpolicy.resolve_left (by decide)
      rw [hnil, List.take_nil, response_incomplete rfl]
      rfl

/-- `Complete` fails on an early read error and reads all there is otherwise. -/
theorem complete_eq (maxBytes : ℕ) (s : Incoming) :
    getAsync .complete maxBytes false s =
      if s.ending = .error ∧ s.bytes.length < maxBytes then .error "read response failed"
      else response (s.bytes.take maxBytes) := by
  have hfetched := fetched .complete maxBytes s
  rw [getAsync, if_neg Bool.false_ne_true]
  generalize getAsyncLoop .complete maxBytes s [] = read at hfetched ⊢
  cases hfetched with
  | whole hall hwhy =>
      have hnot : ¬ (s.ending = .error ∧ s.bytes.length < maxBytes) := by
        rintro ⟨hend, hshort⟩
        rcases hwhy with heof | hfull | hpartial
        · rw [hend] at heof
          cases heof
        · omega
        · cases hpartial
      rw [if_neg hnot, hall]
  | early hpolicy hfront hdone => cases hpolicy
  | failed hend hshort hpolicy =>
      rw [if_pos ⟨hend, hshort⟩]

/-- The login flow's view of a request is this loop. -/
theorem getComplete_eq (maxBytes : ℕ) (s : Incoming) :
    getComplete maxBytes
        (if s.ending = .error ∧ s.bytes.length < maxBytes then none else some s.bytes) =
      (getAsync .complete maxBytes false s).toOption := by
  rw [complete_eq]
  split <;> rfl

theorem summary_isSome {res : Except String Response} :
    (summary res).isSome = true ↔ ∃ r, res = .ok r := by
  cases res <;> simp [summary, Except.toOption]

end Transport

/-- **A response does not depend on packet boundaries.** Under `AcceptPartial` there is
one iff the received bytes, up to the limit, hold complete headers with a status, and its
status and location are those of every other cutting and of `Complete`. Under `Complete`
an early read error always fails, and every cutting gives the same result. Both
functions agree. -/
theorem http_ignores_packets (maxBytes : ℕ) (inTime : ℕ → Bool) (htime : ∀ n, inTime n = true)
    (s : Incoming) :
    (∀ policy, Transport.get policy maxBytes inTime s =
      Transport.getAsync policy maxBytes false s) ∧
    ((∃ r, Transport.get .acceptPartial maxBytes inTime s = .ok r) ↔
      ∃ head tail status, Transport.Headers (s.bytes.take maxBytes) head tail ∧
        Transport.statusOf head = some status) ∧
    (∀ s' : Incoming, s'.bytes = s.bytes →
      Transport.summary (Transport.get .acceptPartial maxBytes inTime s') =
        Transport.summary (Transport.get .acceptPartial maxBytes inTime s)) ∧
    (∀ s' : Incoming, s'.bytes = s.bytes → ∀ r,
      Transport.get .complete maxBytes inTime s' = .ok r →
        Transport.summary (Transport.get .acceptPartial maxBytes inTime s) =
          some (r.status, r.locationLower)) ∧
    (s.ending = .error → s.bytes.length < maxBytes →
      ∃ e, Transport.get .complete maxBytes inTime s = .error e) ∧
    ∀ s' : Incoming, s'.bytes = s.bytes → s'.ending = s.ending →
      Transport.get .complete maxBytes inTime s' = Transport.get .complete maxBytes inTime s := by
  have heq (policy : ReadPolicy) (t : Incoming) := Transport.get_eq policy maxBytes htime t
  simp only [heq]
  refine ⟨fun _ => trivial, ?_, ?_, ?_, ?_, ?_⟩
  · rw [← Transport.summary_isSome, Transport.acceptPartial_summary, Transport.summary_isSome,
      Transport.response_ok_iff]
  · intro s' hbytes
    rw [Transport.acceptPartial_summary, Transport.acceptPartial_summary, hbytes]
  · intro s' hbytes r hr
    rw [Transport.complete_eq, hbytes] at hr
    split at hr
    · cases hr
    · rw [Transport.acceptPartial_summary, hr]
      rfl
  · intro hend hshort
    rw [Transport.complete_eq, if_pos ⟨hend, hshort⟩]
    exact ⟨_, rfl⟩
  · intro s' hbytes hend
    rw [Transport.complete_eq, Transport.complete_eq, hbytes, hend]

/-- A redirect to the portal, broken off behind its headers. -/
def brokenRedirect (packets : List (List UInt8)) (h : ∀ p ∈ packets, p ≠ []) : Incoming :=
  ⟨packets, .error, h⟩

/-- Cut between the two line ends of the blank line, or not at all. -/
theorem http_ignores_packets_redirect :
    let head := Json.utf8 "HTTP/1.0 302 Found\r\nLocation: http://Portal/"
    let whole := brokenRedirect [head ++ blankLine] (by decide)
    let cut := brokenRedirect [head ++ [0x0d, 0x0a], [0x0d, 0x0a]] (by decide)
    Transport.summary (Transport.get .acceptPartial 16384 (fun _ => true) cut) =
      Transport.summary (Transport.get .acceptPartial 16384 (fun _ => true) whole) := by
  intro head whole cut
  exact (http_ignores_packets 16384 (fun _ => true) (fun _ => rfl) whole).2.2.1 cut (by decide)

end GdutNet
