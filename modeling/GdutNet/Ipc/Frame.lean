import GdutNet.Ipc.Wire
import GdutNet.Machine.Trace
import GdutNet.Stream.Pieces

/-!
# JSON-line frames

`encode_frame` and `FrameDecoder` of `ipc/protocol.rs`. A decoder is a machine
fed with chunks; `feed_tracks` says what one call does to a decoder that has
read `seen` so far, and everything about a run of calls follows from it.
-/

namespace GdutNet

open Pieces

def newline : UInt8 := 0x0a

def isNewline (b : UInt8) : Bool := b == newline

/-- `toVec` is `serde_json::to_vec` at the type of the message. -/
def encodeFrame {μ : Type*} (toVec : μ → List UInt8) (msg : μ) : List UInt8 :=
  toVec msg ++ [newline]

/-- The limit includes the newline. -/
def maxFrameBytes : ℕ := 64 * 1024

structure FrameTooLarge where
deriving DecidableEq, Repr

structure FrameDecoder where
  buf : List UInt8 := []
  rejected : Bool := false
deriving DecidableEq, Repr

namespace FrameDecoder

abbrev Fed := Except FrameTooLarge (List (List UInt8))

/-- The loop of `feed` over the parts of a chunk; `frames` are those found so
far. -/
def feedParts (d : FrameDecoder) (frames : List (List UInt8)) :
    List (List UInt8) → FrameDecoder × Fed
  | [] => (d, .ok frames)
  | part :: parts =>
      if maxFrameBytes - d.buf.length < part.length then
        ({ d with buf := [], rejected := true }, .error {})
      else if part.getLast? = some newline then
        feedParts { d with buf := [] } (frames ++ [d.buf ++ part]) parts
      else
        feedParts { d with buf := d.buf ++ part } frames parts

def feed (d : FrameDecoder) (chunk : List UInt8) : FrameDecoder × Fed :=
  if d.rejected then (d, .error {})
  else feedParts d [] (splitInclusive isNewline chunk)

abbrev history (chunks : List (List UInt8)) :
    List (Machine.Step FrameDecoder (List UInt8) Fed) :=
  Machine.trace feed {} chunks

abbrev after (chunks : List (List UInt8)) : FrameDecoder :=
  Machine.final feed {} chunks

/-! ## One call -/

/-- The loop, on any parts: an error as soon as a piece is too long, else the
pieces, with the open one left in the buffer. -/
theorem feedParts_spec {parts : List (List UInt8)}
    (hparts : ∀ q ∈ parts, IsPart isNewline q) (buf : List UInt8)
    (frames : List (List UInt8)) (hbuf : buf.length ≤ maxFrameBytes) :
    (Over isNewline maxFrameBytes buf parts.flatten →
      feedParts ⟨buf, false⟩ frames parts = (⟨[], true⟩, .error {})) ∧
    (¬ Over isNewline maxFrameBytes buf parts.flatten →
      feedParts ⟨buf, false⟩ frames parts =
        (⟨rest isNewline buf parts.flatten, false⟩,
          .ok (frames ++ pieces isNewline buf parts.flatten))) := by
  induction parts generalizing buf frames with
  | nil =>
      constructor
      · rintro (⟨q, hq, -⟩ | hlong)
        · cases hq
        · exact absurd hlong (by simpa [rest] using hbuf)
      · intro _
        simp [feedParts, rest, pieces]
  | cons part parts ih =>
      obtain ⟨hpart, hparts⟩ := List.forall_mem_cons.mp hparts
      rw [List.flatten_cons, feedParts]
      by_cases hlong : maxFrameBytes - buf.length < part.length
      · have hover : Over isNewline maxFrameBytes buf (part ++ parts.flatten) := by
          apply over_append_of_over
          rw [hpart.over_iff]
          omega
        rw [if_pos hlong]
        exact ⟨fun _ => rfl, fun h => absurd hover h⟩
      · have hfits : ¬ Over isNewline maxFrameBytes buf part := by
          rw [hpart.over_iff]
          omega
        rw [if_neg hlong, not_over_append hfits, pieces_append, rest_append]
        obtain ⟨x, hlast, h⟩ := hpart.read buf
        -- the part ends the piece in the buffer, or prolongs it
        rcases h with ⟨hx, hpieces, hrest⟩ | ⟨hx, hpieces, hrest⟩
        · have hx' : x = newline := by simpa [isNewline] using hx
          rw [if_pos (by rw [hlast, hx']), hpieces, hrest, ← List.append_assoc]
          exact ih hparts [] _ (Nat.zero_le _)
        · have hx' : x ≠ newline := by simpa [isNewline] using hx
          rw [if_neg (by simpa [hlast] using hx'), hpieces, hrest, List.nil_append]
          refine ih hparts (buf ++ part) frames ?_
          rw [List.length_append]
          omega

/-- What a decoder that was fed `seen` in any chunks looks like. -/
structure Tracks (d : FrameDecoder) (seen : List UInt8) : Prop where
  live : ¬ Exceeds isNewline maxFrameBytes seen →
    d = ⟨rest isNewline [] seen, false⟩
  dead : Exceeds isNewline maxFrameBytes seen → d = ⟨[], true⟩

theorem Tracks.start : Tracks {} [] := by
  constructor
  · intro _
    rfl
  · rw [exceeds_iff_over]
    rintro (⟨q, hq, -⟩ | hlong)
    · cases hq
    · cases hlong

theorem rest_le_of_not_exceeds {seen : List UInt8}
    (h : ¬ Exceeds isNewline maxFrameBytes seen) :
    (rest isNewline [] seen).length ≤ maxFrameBytes := by
  rw [exceeds_iff_over] at h
  exact Nat.le_of_not_lt (fun hlong => h (Or.inr hlong))

/-- One call: whether it errs, what it returns and what it leaves behind. -/
theorem feed_tracks {d : FrameDecoder} {seen : List UInt8} (h : Tracks d seen)
    (chunk : List UInt8) :
    Tracks (feed d chunk).1 (seen ++ chunk) ∧
    (Exceeds isNewline maxFrameBytes (seen ++ chunk) → (feed d chunk).2 = .error {}) ∧
    (¬ Exceeds isNewline maxFrameBytes (seen ++ chunk) →
      (feed d chunk).2 = .ok (pieces isNewline (rest isNewline [] seen) chunk)) := by
  by_cases hseen : Exceeds isNewline maxFrameBytes seen
  · have hnow := hseen.append chunk
    rw [h.dead hseen]
    exact ⟨⟨fun hn => absurd hnow hn, fun _ => rfl⟩, fun _ => rfl,
      fun hn => absurd hnow hn⟩
  · have hcut : Exceeds isNewline maxFrameBytes (seen ++ chunk) ↔
        Over isNewline maxFrameBytes (rest isNewline [] seen) chunk := by
      rw [exceeds_iff_over, not_over_append (by rwa [← exceeds_iff_over])]
    obtain ⟨hbad, hgood⟩ := feedParts_spec (splitInclusive_isPart chunk)
      (rest isNewline [] seen) [] (rest_le_of_not_exceeds hseen)
    rw [splitInclusive_flatten] at hbad hgood
    rw [h.live hseen]
    show Tracks (feedParts _ _ _).1 _ ∧ (_ → (feedParts _ _ _).2 = _) ∧
      (_ → (feedParts _ _ _).2 = _)
    by_cases hnow : Exceeds isNewline maxFrameBytes (seen ++ chunk)
    · rw [hbad (hcut.mp hnow)]
      exact ⟨⟨fun hn => absurd hnow hn, fun _ => rfl⟩, fun _ => rfl,
        fun hn => absurd hnow hn⟩
    · rw [hgood (fun hover => hnow (hcut.mpr hover))]
      refine ⟨⟨fun _ => ?_, fun hn => absurd hn hnow⟩, fun hn => absurd hn hnow,
        fun _ => rfl⟩
      rw [rest_append]

/-! ## A run of calls -/

theorem after_tracks (chunks : List (List UInt8)) :
    Tracks (after chunks) chunks.flatten := by
  induction chunks using List.reverseRecOn with
  | nil => exact Tracks.start
  | append_singleton chunks chunk ih =>
      rw [after, Machine.final_snoc, List.flatten_append, List.flatten_singleton]
      exact (feed_tracks ih chunk).1

/-- Without an overlong piece every call succeeds, and together the calls
return the pieces of the stream. -/
theorem history_out_ok (chunks : List (List UInt8))
    (h : ¬ Exceeds isNewline maxFrameBytes chunks.flatten) :
    ∃ returned : List (List (List UInt8)), (history chunks).map (·.out) = returned.map .ok ∧
      returned.flatten = pieces isNewline [] chunks.flatten := by
  induction chunks using List.reverseRecOn with
  | nil => exact ⟨[], rfl, rfl⟩
  | append_singleton chunks chunk ih =>
      rw [List.flatten_append, List.flatten_singleton] at h ⊢
      obtain ⟨returned, houts, hflat⟩ := ih (fun hx => h (hx.append chunk))
      refine ⟨returned ++ [pieces isNewline (rest isNewline [] chunks.flatten) chunk], ?_, ?_⟩
      · have hlast := (feed_tracks (after_tracks chunks) chunk).2.2 h
        rw [history, Machine.trace_snoc, List.map_append, houts, List.map_append]
        simp [hlast]
      · rw [pieces_append, List.flatten_append, hflat, List.flatten_singleton]

theorem out_ne_error {chunks : List (List UInt8)}
    (h : ¬ Exceeds isNewline maxFrameBytes chunks.flatten) :
    ∀ r ∈ history chunks, r.out ≠ .error {} := by
  intro r hr herr
  obtain ⟨returned, houts, -⟩ := history_out_ok chunks h
  have hmem : r.out ∈ returned.map .ok := by
    rw [← houts]
    exact List.mem_map_of_mem hr
  obtain ⟨frames, -, hok⟩ := List.mem_map.mp hmem
  rw [herr] at hok
  cases hok

/-- The frames of the calls before the first error, in order. -/
def framesBeforeError : List Fed → List (List UInt8)
  | [] => []
  | .error _ :: _ => []
  | .ok frames :: outs => frames ++ framesBeforeError outs

theorem framesBeforeError_ok (returned : List (List (List UInt8))) :
    framesBeforeError (returned.map .ok) = returned.flatten := by
  induction returned with
  | nil => rfl
  | cons frames returned ih => simp [framesBeforeError, ih]

theorem framesBeforeError_snoc_error (outs : List Fed) (e : FrameTooLarge) :
    framesBeforeError (outs ++ [.error e]) = framesBeforeError outs := by
  induction outs with
  | nil => rfl
  | cons out outs ih =>
      cases out with
      | error e' => rfl
      | ok frames => simp [framesBeforeError, ih]

theorem framesBeforeError_prefix_pieces (chunks : List (List UInt8)) :
    framesBeforeError ((history chunks).map (·.out)) <+:
      pieces isNewline [] chunks.flatten := by
  induction chunks using List.reverseRecOn with
  | nil => exact List.prefix_refl _
  | append_singleton chunks chunk ih =>
      by_cases h : Exceeds isNewline maxFrameBytes (chunks ++ [chunk]).flatten
      · have hlast : (feed (after chunks) chunk).2 = .error {} := by
          apply (feed_tracks (after_tracks chunks) chunk).2.1
          simpa using h
        rw [history, Machine.trace_snoc, List.map_append, List.map_singleton,
          Machine.stepAt_out, hlast, framesBeforeError_snoc_error, List.flatten_append,
          pieces_append]
        exact ih.trans (List.prefix_append _ _)
      · obtain ⟨returned, houts, hflat⟩ := history_out_ok _ h
        have hall : framesBeforeError ((history (chunks ++ [chunk])).map (·.out)) =
            pieces isNewline [] (chunks ++ [chunk]).flatten := by
          rw [houts, framesBeforeError_ok, hflat]
        exact ⟨[], by rw [List.append_nil, hall]⟩

/-- The decoder inside a call, when `k` parts of the chunk are done. -/
def midway (d : FrameDecoder) (chunk : List UInt8) (k : ℕ) : FrameDecoder :=
  if d.rejected then d
  else (feedParts d [] ((splitInclusive isNewline chunk).take k)).1

theorem Tracks.midway_buf_le {d : FrameDecoder} {seen : List UInt8} (h : Tracks d seen)
    (chunk : List UInt8) (k : ℕ) : (midway d chunk k).buf.length ≤ maxFrameBytes := by
  unfold midway
  by_cases hseen : Exceeds isNewline maxFrameBytes seen
  · rw [h.dead hseen]
    exact Nat.zero_le _
  · rw [h.live hseen, if_neg (by simp)]
    have hparts : ∀ q ∈ (splitInclusive isNewline chunk).take k, IsPart isNewline q :=
      fun q hq => splitInclusive_isPart chunk q (List.mem_of_mem_take hq)
    obtain ⟨hbad, hgood⟩ := feedParts_spec hparts (rest isNewline [] seen) []
      (rest_le_of_not_exceeds hseen)
    by_cases hover : Over isNewline maxFrameBytes (rest isNewline [] seen)
        ((splitInclusive isNewline chunk).take k).flatten
    · rw [hbad hover]
      exact Nat.zero_le _
    · rw [hgood hover]
      exact Nat.le_of_not_lt (fun hlong => hover (Or.inr hlong))

/-- A call of a run errs exactly if the current piece has been too long at some
point of the stream up to the end of its chunk. -/
theorem out_error_iff {chunks : List (List UInt8)}
    {past later : List (Machine.Step FrameDecoder (List UInt8) Fed)}
    {r : Machine.Step FrameDecoder (List UInt8) Fed}
    (h : history chunks = past ++ r :: later) :
    r.out = .error {} ↔
      Exceeds isNewline maxFrameBytes ((past.map (·.input)).flatten ++ r.input) := by
  obtain ⟨xs, chunk, ys, rfl, rfl, rfl, rfl⟩ := Machine.trace_split h
  rw [Machine.trace_inputs, Machine.stepAt_input, Machine.stepAt_out]
  obtain ⟨-, hbad, hgood⟩ := feed_tracks (after_tracks xs) chunk
  constructor
  · intro herr
    by_contra hfits
    rw [hgood hfits] at herr
    cases herr
  · exact hbad

end FrameDecoder

/-! ## Framing -/

theorem newline_notMem {bs : List UInt8} (h : Json.Printable bs) : newline ∉ bs :=
  fun hmem => absurd (h _ hmem) (by decide)

theorem encodeFrame_closed {μ : Type*} {toVec : μ → List UInt8}
    (hraw : ∀ m, newline ∉ toVec m) (msgs : List μ) :
    ∀ q ∈ msgs.map (encodeFrame toVec), ∃ r x, q = r ++ [x] ∧
      (∀ y ∈ r, isNewline y = false) ∧ isNewline x = true := by
  intro q hq
  obtain ⟨m, -, rfl⟩ := List.mem_map.mp hq
  refine ⟨toVec m, newline, rfl, ?_, by simp [isNewline]⟩
  intro y hy
  have hne : y ≠ newline := fun h => hraw m (h ▸ hy)
  simpa [isNewline] using hne

theorem frames_not_exceed {μ : Type*} {toVec : μ → List UInt8}
    (hraw : ∀ m, newline ∉ toVec m) {msgs : List μ}
    (hfit : ∀ m ∈ msgs, (encodeFrame toVec m).length ≤ maxFrameBytes) :
    ¬ Exceeds isNewline maxFrameBytes (msgs.map (encodeFrame toVec)).flatten := by
  obtain ⟨hpieces, hrest⟩ := pieces_flatten_closed (encodeFrame_closed hraw msgs)
  rw [exceeds_iff_over, Over, hpieces, hrest]
  rintro (⟨q, hq, hlong⟩ | hlong)
  · obtain ⟨m, hm, rfl⟩ := List.mem_map.mp hq
    exact absurd (hfit m hm) (Nat.not_le_of_lt hlong)
  · cases hlong

open FrameDecoder in
/-- Frames that fit come out as they went in, whatever the chunks; on any
stream, the frames before the first error are the first pieces, the first error
is in the call in which the current piece outgrows the limit, no call succeeds
after it, and the buffer never outgrows the limit, inside a call neither. -/
theorem framing_lossless_any_chunking {μ : Type*} (toVec : μ → List UInt8)
    (hraw : ∀ m, newline ∉ toVec m) :
    (∀ (msgs : List μ) (chunks : List (List UInt8)),
      (∀ m ∈ msgs, (encodeFrame toVec m).length ≤ maxFrameBytes) →
      chunks.flatten = (msgs.map (encodeFrame toVec)).flatten →
      ∃ returned : List (List (List UInt8)), (history chunks).map (·.out) = returned.map .ok ∧
        returned.flatten = msgs.map (encodeFrame toVec) ∧ (after chunks).buf = []) ∧
    ∀ chunks : List (List UInt8),
      framesBeforeError ((history chunks).map (·.out)) <+:
        pieces isNewline [] chunks.flatten ∧
      (∀ past r later, history chunks = past ++ r :: later →
        (r.out = .error {} ↔
          Exceeds isNewline maxFrameBytes ((past.map (·.input)).flatten ++ r.input)) ∧
        (r.out = .error {} → ∀ q ∈ later, q.out = .error {})) ∧
      ∀ chunk k, (midway (after chunks) chunk k).buf.length ≤ maxFrameBytes := by
  constructor
  · intro msgs chunks hfit hstream
    obtain ⟨hpieces, hrest⟩ := pieces_flatten_closed (encodeFrame_closed hraw msgs)
    have hok : ¬ Exceeds isNewline maxFrameBytes chunks.flatten := by
      rw [hstream]
      exact frames_not_exceed hraw hfit
    obtain ⟨returned, houts, hflat⟩ := history_out_ok chunks hok
    refine ⟨returned, houts, ?_, ?_⟩
    · rw [hflat, hstream, hpieces]
    · rw [(after_tracks chunks).live hok, hstream, hrest]
  · intro chunks
    refine ⟨framesBeforeError_prefix_pieces chunks, ?_, (after_tracks chunks).midway_buf_le⟩
    intro past r later h
    refine ⟨out_error_iff h, ?_⟩
    intro herr q hq
    obtain ⟨between, after, rfl⟩ := List.append_of_mem hq
    have hq' : history chunks = (past ++ r :: between) ++ q :: after := by simp [h]
    rw [out_error_iff hq']
    have hx := ((out_error_iff h).mp herr).append
      ((between.map (·.input)).flatten ++ q.input)
    simpa using hx

def twoCommands : List ClientMsg := [.cmd .redial, .cmd (.setMode .wiredPlusStandby)]

/-- Two commands in one stream, cut in the middle of the first. -/
def twoCommandChunks : List (List UInt8) :=
  let stream := (twoCommands.map (encodeFrame ClientMsg.toVec)).flatten
  [stream.take 7, [], stream.drop 7]

open FrameDecoder in
theorem framing_lossless_two_commands :
    (∀ m : ClientMsg, newline ∉ m.toVec) ∧
    ∃ returned : List (List (List UInt8)),
      (history twoCommandChunks).map (·.out) = returned.map .ok ∧
        returned.flatten = twoCommands.map (encodeFrame ClientMsg.toVec) ∧
        (after twoCommandChunks).buf = [] := by
  have hraw : ∀ m : ClientMsg, newline ∉ m.toVec :=
    fun m => newline_notMem m.toVec_printable
  refine ⟨hraw, ?_⟩
  exact (framing_lossless_any_chunking ClientMsg.toVec hraw).1 twoCommands
    twoCommandChunks (by decide) (by decide)

end GdutNet
