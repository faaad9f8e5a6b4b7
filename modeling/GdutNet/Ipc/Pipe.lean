import GdutNet.Ipc.Server
import GdutNet.Ipc.Session

/-!
# The client's side of the pipe

`Session` of `session.rs` on the bytes that its reads return: the frames of a read wait
in `buf` until they are asked for, and frames that do not parse are skipped. Whatever
the reads are, the session is the one on snapshots that `Frames` describes.
`serde_json::from_slice` is the parameter `fromSlice`.
-/

namespace GdutNet.Pipe

/-- How a read of the pipe ends. No bytes: the service has closed it. -/
inductive Read where
  | bytes (chunk : List UInt8)
  | failed (e : String)
deriving DecidableEq, Repr

/-- A session, with what its reads are going to return; there may be more to wait for. -/
structure Session where
  reads : List Read
  decoder : FrameDecoder := {}
  buf : List (List UInt8) := []
deriving DecidableEq, Repr

/-- `none` waits for the pipe. -/
abbrev Awaited (α : Type) : Type := ExceptT String Option α

def closedText : String := "Server closed the connection"

def failedText (e : String) : String := "Failed to read pipe (service exited?): " ++ e

def tooLargeText : String := "IPC frame exceeds the 64 KiB limit"

variable (fromSlice : List UInt8 → Option ServerMsg)

/-- The next snapshot in the buffer. -/
def popState : List (List UInt8) → Option (StateSnapshot × List (List UInt8))
  | [] => none
  | frame :: buf =>
      match fromSlice frame with
      | some (.state s) => some (s, buf)
      | none => popState buf

/-- The loop of `next_snapshot`: the buffer first, then one more read. -/
def nextFrom (decoder : FrameDecoder) (buf : List (List UInt8)) :
    List Read → Awaited (StateSnapshot × Session)
  | [] =>
      match popState fromSlice buf with
      | some (s, buf) => some (.ok (s, { reads := [], decoder, buf }))
      | none => none
  | read :: reads =>
      match popState fromSlice buf with
      | some (s, buf) => some (.ok (s, { reads := read :: reads, decoder, buf }))
      | none =>
          match read with
          | .failed e => some (.error (failedText e))
          | .bytes chunk =>
              if chunk = [] then some (.error closedText)
              else
                match decoder.feed chunk with
                | (_, .error _) => some (.error tooLargeText)
                | (decoder, .ok frames) => nextFrom decoder frames reads

namespace Session

def nextSnapshot (session : Session) : Awaited (StateSnapshot × Session) :=
  nextFrom fromSlice session.decoder session.buf session.reads

/-- The loop of `send_and_confirm`; `last` is the frame read before. -/
def confirmLoop (confirm : StateSnapshot → Bool) :
    ℕ → Option StateSnapshot → Session → Awaited StateSnapshot
  | 0, last, _ =>
      match last with
      | some s => some (.ok s)
      | none => some (.error "No frames read while awaiting confirmation")
  | n + 1, _, session => do
      let (s, session) ← session.nextSnapshot fromSlice
      if confirm s then some (.ok s) else confirmLoop confirm n (some s) session

def sendAndConfirm (sent : Except String Unit) (confirm : StateSnapshot → Bool)
    (maxFrames : ℕ) (session : Session) : Awaited StateSnapshot := do
  ExceptT.mk (some sent)
  session.confirmLoop fromSlice confirm maxFrames none

end Session

/-- `set_mode_confirmed` once it is connected. -/
def setModeConfirmed (mode : NetMode) (sent : Except String Unit) (session : Session) :
    Awaited StateSnapshot := do
  let (_, session) ← session.nextSnapshot fromSlice
  let snapshot ← session.sendAndConfirm fromSlice sent (fun s => s.mode = mode) 5
  if snapshot.mode ≠ mode then
    some (.error "Service did not confirm mode switch (check `status` output)")
  else some (.ok snapshot)

/-! ## What a session has to come -/

/-- The snapshots in some frames. -/
def states (frames : List (List UInt8)) : List StateSnapshot :=
  frames.filterMap (fun frame => (fromSlice frame).map (fun | .state s => s))

/-- The frames that some reads complete, up to the first fault. -/
def framesToCome (decoder : FrameDecoder) : List Read → List (List UInt8) × Option String
  | [] => ([], none)
  | .failed e :: _ => ([], some (failedText e))
  | .bytes chunk :: reads =>
      if chunk = [] then ([], some closedText)
      else
        match decoder.feed chunk with
        | (_, .error _) => ([], some tooLargeText)
        | (decoder, .ok frames) =>
            (frames ++ (framesToCome decoder reads).1, (framesToCome decoder reads).2)

variable {fromSlice}

variable (fromSlice) in
theorem popState_eq (frames : List (List UInt8)) :
    (popState fromSlice frames = none ∧ states fromSlice frames = []) ∨
    ∃ s buf, popState fromSlice frames = some (s, buf) ∧
      states fromSlice frames = s :: states fromSlice buf := by
  induction frames with
  | nil => exact .inl ⟨rfl, rfl⟩
  | cons frame frames ih =>
      cases hframe : fromSlice frame with
      | some msg =>
          obtain ⟨s⟩ := msg
          exact .inr ⟨s, frames, by rw [popState, hframe], by simp [states, hframe]⟩
      | none =>
          have hpop : popState fromSlice (frame :: frames) = popState fromSlice frames := by
            rw [popState, hframe]
          have hstates : states fromSlice (frame :: frames) = states fromSlice frames := by
            simp [states, hframe]
          rw [hpop, hstates]
          exact ih

theorem states_append (xs ys : List (List UInt8)) :
    states fromSlice (xs ++ ys) = states fromSlice xs ++ states fromSlice ys :=
  List.filterMap_append

theorem nextFrom_of_popState {buf buf' : List (List UInt8)} {s : StateSnapshot}
    (h : popState fromSlice buf = some (s, buf')) (decoder : FrameDecoder) (reads : List Read) :
    nextFrom fromSlice decoder buf reads = some (.ok (s, { reads, decoder, buf := buf' })) := by
  cases reads <;> (unfold nextFrom; rw [h])

namespace Session

variable (fromSlice) in
/-- The snapshots of a session, and how it ends; `none`, if it does not end. -/
def toCome (session : Session) : List StateSnapshot × Option String :=
  (states fromSlice (session.buf ++ (framesToCome session.decoder session.reads).1),
    (framesToCome session.decoder session.reads).2)

variable (fromSlice) in
/-- One call takes the first of the snapshots to come; without one it ends as the
session does. -/
theorem nextSnapshot_cases (session : Session) :
    (session.toCome fromSlice).1 = [] ∧
      session.nextSnapshot fromSlice = (session.toCome fromSlice).2.map .error ∨
    ∃ s session', session.nextSnapshot fromSlice = some (.ok (s, session')) ∧
      session.toCome fromSlice =
        (s :: (session'.toCome fromSlice).1, (session'.toCome fromSlice).2) := by
  obtain ⟨reads, decoder, buf⟩ := session
  simp only [nextSnapshot, toCome]
  induction reads generalizing decoder buf with
  | nil =>
      rcases popState_eq fromSlice buf with
        ⟨hpop, hstates⟩ | ⟨s, buf', hpop, hstates⟩
      · left
        rw [nextFrom, hpop, framesToCome, List.append_nil, hstates]
        exact ⟨rfl, rfl⟩
      · right
        refine ⟨s, _, nextFrom_of_popState hpop decoder [], ?_⟩
        rw [states_append, hstates, states_append, List.cons_append]
  | cons read reads ih =>
      rcases popState_eq fromSlice buf with
        ⟨hpop, hstates⟩ | ⟨s, buf', hpop, hstates⟩
      · rw [states_append, hstates, List.nil_append]
        unfold nextFrom
        rw [hpop]
        cases read with
        | failed e => exact .inl ⟨rfl, rfl⟩
        | bytes chunk =>
            by_cases hchunk : chunk = []
            · simp only [framesToCome, if_pos hchunk]
              exact .inl ⟨rfl, rfl⟩
            · simp only [framesToCome, if_neg hchunk]
              rcases hfeed : decoder.feed chunk with ⟨decoder', _ | frames⟩
              · exact .inl ⟨rfl, rfl⟩
              · exact ih decoder' frames
      · right
        refine ⟨s, _, nextFrom_of_popState hpop decoder (read :: reads), ?_⟩
        rw [states_append, hstates, states_append, List.cons_append]

/-! ## The session on snapshots -/

theorem confirmLoop_eq (confirm : StateSnapshot → Bool) {n : ℕ} {last : Option StateSnapshot}
    {session : Session} {fault : String} (hfault : (session.toCome fromSlice).2 = some fault) :
    session.confirmLoop fromSlice confirm n last =
      some (GdutNet.Session.confirmLoop confirm n last
        ⟨(session.toCome fromSlice).1, fault⟩) := by
  induction n generalizing last session with
  | zero => cases last <;> rfl
  | succ n ih =>
      rcases session.nextSnapshot_cases fromSlice with
        ⟨hnone, hnext⟩ | ⟨s, session', hnext, hcome⟩
      · rw [hnone]
        rw [hfault] at hnext
        have hloop : session.confirmLoop fromSlice confirm (n + 1) last =
            session.nextSnapshot fromSlice >>= fun p =>
              if confirm p.1 then some (.ok p.1)
              else p.2.confirmLoop fromSlice confirm n (some p.1) := rfl
        rw [hloop, hnext]
        rfl
      · have hloop : session.confirmLoop fromSlice confirm (n + 1) last =
            session.nextSnapshot fromSlice >>= fun p =>
              if confirm p.1 then some (.ok p.1)
              else p.2.confirmLoop fromSlice confirm n (some p.1) := rfl
        rw [hcome] at hfault ⊢
        rw [hloop, hnext]
        change (if confirm s then _ else _) = some (if confirm s then _ else _)
        split
        · rfl
        · exact ih hfault

end Session

/-- A session that ends is one on the snapshots that it has to come. -/
theorem setModeConfirmed_eq (mode : NetMode) (sent : Except String Unit) {session : Session}
    {fault : String} (hfault : (session.toCome fromSlice).2 = some fault) :
    setModeConfirmed fromSlice mode sent session =
      some (GdutNet.Session.setModeConfirmed mode sent
        ⟨(session.toCome fromSlice).1, fault⟩) := by
  have hrun : setModeConfirmed fromSlice mode sent session =
      session.nextSnapshot fromSlice >>= fun p =>
        p.2.sendAndConfirm fromSlice sent (fun s => s.mode = mode) 5 >>= fun snapshot =>
          if snapshot.mode ≠ mode then
            some (.error "Service did not confirm mode switch (check `status` output)")
          else some (.ok snapshot) := rfl
  rcases session.nextSnapshot_cases fromSlice with
    ⟨hnone, hnext⟩ | ⟨s, session', hnext, hcome⟩
  · rw [hnone, hrun, hnext, hfault]
    rfl
  · rw [hcome] at hfault ⊢
    rw [hrun, hnext]
    cases sent with
    | error e => rfl
    | ok _ =>
        have hloop : session'.confirmLoop fromSlice (fun s => s.mode = mode) 5 none =
            some (GdutNet.Session.confirmLoop (fun s => s.mode = mode) 5 none
              ⟨(session'.toCome fromSlice).1, fault⟩) :=
          Session.confirmLoop_eq _ hfault
        change (session'.confirmLoop fromSlice (fun s => s.mode = mode) 5 none >>= fun snapshot =>
            if snapshot.mode ≠ mode then
              some (.error "Service did not confirm mode switch (check `status` output)")
            else some (.ok snapshot) : Awaited StateSnapshot) =
          some (GdutNet.Session.confirmLoop (fun s => s.mode = mode) 5 none
            ⟨(session'.toCome fromSlice).1, fault⟩ >>= fun snapshot =>
              if snapshot.mode ≠ mode then
                .error "Service did not confirm mode switch (check `status` output)"
              else .ok snapshot)
        rw [hloop]
        cases GdutNet.Session.confirmLoop (fun s => s.mode = mode) 5 none
          ⟨(session'.toCome fromSlice).1, fault⟩ with
        | error e => rfl
        | ok snapshot => exact apply_ite some _ _ _ |>.symm

/-! ## What the service wrote -/

theorem framesToCome_chunks {decoder : FrameDecoder} {chunks : List (List UInt8)}
    (hne : ∀ chunk ∈ chunks, chunk ≠ []) {returned : List (List (List UInt8))}
    (houts : (Machine.trace FrameDecoder.feed decoder chunks).map (·.out) = returned.map .ok)
    (later : List Read) :
    framesToCome decoder (chunks.map .bytes ++ later) =
      (returned.flatten ++
          (framesToCome (Machine.final FrameDecoder.feed decoder chunks) later).1,
        (framesToCome (Machine.final FrameDecoder.feed decoder chunks) later).2) := by
  induction chunks generalizing decoder returned with
  | nil =>
      have hnone : returned = [] := by simpa using houts.symm
      rw [hnone]
      rfl
  | cons chunk chunks ih =>
      obtain ⟨hchunk, hne⟩ := List.forall_mem_cons.mp hne
      cases returned with
      | nil => simp [Machine.trace_cons] at houts
      | cons frames returned =>
          rw [Machine.trace_cons, List.map_cons, List.map_cons, List.cons.injEq] at houts
          obtain ⟨hout, houts⟩ := houts
          have hfeed : decoder.feed chunk = ((decoder.feed chunk).1, .ok frames) :=
            Prod.ext rfl hout
          rw [List.map_cons, List.cons_append, framesToCome, if_neg hchunk, hfeed]
          dsimp only
          rw [ih hne houts, List.flatten_cons, List.append_assoc]
          rfl

/-- The frame of a snapshot. -/
def stateFrame (e : Json.Escape) (snap : StateSnapshot) : List UInt8 :=
  encodeFrame (ServerMsg.toVec e) (.state snap)

theorem stateFrame_raw (e : Json.Escape) (m : ServerMsg) : newline ∉ m.toVec e :=
  newline_notMem (m.toVec_printable e)

variable {e : Json.Escape} {snaps : List StateSnapshot}

theorem states_stateFrames
    (hparse : ∀ s ∈ snaps, fromSlice (stateFrame e s) = some (.state s)) :
    states fromSlice (snaps.map (stateFrame e)) = snaps := by
  induction snaps with
  | nil => rfl
  | cons s snaps ih =>
      obtain ⟨hs, hparse⟩ := List.forall_mem_cons.mp hparse
      have htail := ih hparse
      unfold states at htail ⊢
      rw [List.map_cons, List.filterMap_cons, hs, htail]
      rfl

/-- A client that has read some of what the service wrote has the first of the
snapshots, all of them once it has read everything. -/
theorem toCome_of_prefix (hfit : ∀ s ∈ snaps, (stateFrame e s).length ≤ maxFrameBytes)
    (hparse : ∀ s ∈ snaps, fromSlice (stateFrame e s) = some (.state s))
    {chunks : List (List UInt8)} (hne : ∀ chunk ∈ chunks, chunk ≠ [])
    (hstream : chunks.flatten <+: (snaps.map (stateFrame e)).flatten) {later : List Read}
    {fault : Option String} (hlater : ∀ decoder, framesToCome decoder later = ([], fault)) :
    ∃ got, got <+: snaps ∧
      (chunks.flatten = (snaps.map (stateFrame e)).flatten → got = snaps) ∧
      Session.toCome fromSlice { reads := chunks.map .bytes ++ later } = (got, fault) := by
  have hmap : snaps.map (stateFrame e) =
      (snaps.map ServerMsg.state).map (encodeFrame (ServerMsg.toVec e)) := by
    rw [List.map_map]
    rfl
  obtain ⟨hpieces, -⟩ := Pieces.pieces_flatten_closed
    (encodeFrame_closed (stateFrame_raw e) (snaps.map ServerMsg.state))
  have hfits : ¬ Pieces.Exceeds isNewline maxFrameBytes (snaps.map (stateFrame e)).flatten := by
    rw [hmap]
    refine frames_not_exceed (stateFrame_raw e) ?_
    intro m hm
    obtain ⟨s, hs, rfl⟩ := List.mem_map.mp hm
    exact hfit s hs
  rw [← hmap] at hpieces
  obtain ⟨unread, hunread⟩ := hstream
  have hok : ¬ Pieces.Exceeds isNewline maxFrameBytes chunks.flatten := by
    intro hlong
    exact hfits (hunread ▸ hlong.append unread)
  obtain ⟨returned, houts, hflat⟩ := FrameDecoder.history_out_ok chunks hok
  have hframes : framesToCome {} (chunks.map .bytes ++ later) =
      (Pieces.pieces isNewline [] chunks.flatten, fault) := by
    rw [framesToCome_chunks hne houts, hlater, hflat, List.append_nil]
  have hprefix : Pieces.pieces isNewline [] chunks.flatten <+: snaps.map (stateFrame e) := by
    rw [← hpieces, ← hunread, Pieces.pieces_append]
    exact List.prefix_append _ _
  obtain ⟨got, hgot, hread⟩ := List.prefix_map_iff.mp hprefix
  have hstates : states fromSlice (Pieces.pieces isNewline [] chunks.flatten) = got := by
    rw [hread]
    exact states_stateFrames (fun s hs => hparse s (hgot.subset hs))
  refine ⟨got, hgot, ?_, ?_⟩
  · intro hall
    rw [← hstates, hall, hpieces]
    exact states_stateFrames hparse
  · unfold Session.toCome
    dsimp only
    rw [List.nil_append, hframes, hstates]

/-- How a session ends at this read, if it does. -/
def Read.fault : Read → Option String
  | .failed e => some (failedText e)
  | .bytes [] => some closedText
  | .bytes (_ :: _) => none

theorem framesToCome_last {last : Read} {fault : String} (h : last.fault = some fault)
    (decoder : FrameDecoder) : framesToCome decoder [last] = ([], some fault) := by
  cases last with
  | failed e => exact congrArg (Prod.mk []) h
  | bytes chunk =>
      cases chunk with
      | nil => exact congrArg (Prod.mk []) h
      | cons b bs => cases h

/-- Two snapshots; the second shows the mode that is asked for. -/
def standbyShown : List StateSnapshot :=
  [Conn.firstSnapshot, { Conn.firstSnapshot with mode := .wiredPlusStandby }]

/-- `serde_json::from_slice` on their frames. -/
def parseShown (bytes : List UInt8) : Option ServerMsg :=
  (standbyShown.find? (fun s => stateFrame .minimal s = bytes)).map .state

/-- Their frames, cut inside the first one. -/
def shownChunks : List (List UInt8) :=
  [(standbyShown.map (stateFrame .minimal)).flatten.take 7,
    (standbyShown.map (stateFrame .minimal)).flatten.drop 7]

end GdutNet.Pipe
