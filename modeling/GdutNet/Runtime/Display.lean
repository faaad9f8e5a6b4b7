import GdutNet.Ipc.Pipe
import GdutNet.Supervisor.Journal
import GdutNet.Tray.Pump

/-!
# From the supervisor to a client

The runtime sends every snapshot of the supervisor into the channel that the
connections watch, which starts with the state of a new supervisor. What a client has
read is then a view of the supervisor that lags behind it and catches up.
-/

namespace GdutNet.Supervisor

section Client

variable [SerdeJson]

/-- The snapshots that the channel holds in a run. -/
def broadcast (cfg : Config) (is : List Input) : List StateSnapshot :=
  (new cfg).compose :: published cfg is

section Caught

variable {fromSlice : List UInt8 → Option ClientMsg} {cfg : Config} {is : List Input}
  {request : List UInt8} {moves : List Conn.Move}

variable (fromSlice request moves) in
/-- The snapshots written to a connection are snapshots of the channel, in their order. -/
theorem written_shown (hpublished : Conn.published moves = published cfg is) :
    ∃ versions : List ℕ,
      (Conn.after fromSlice (new cfg).compose request moves).written =
        versions.map (fun i => (broadcast cfg is).getD i (new cfg).compose) ∧
      versions.Pairwise (· ≤ ·) ∧ ∀ i ∈ versions, i < (broadcast cfg is).length := by
  obtain ⟨hinitial, hsent⟩ :
      (Conn.after fromSlice (new cfg).compose request moves).watch.initial = (new cfg).compose ∧
      (Conn.after fromSlice (new cfg).compose request moves).watch.sent = Conn.published moves :=
    Conn.after_watch (new cfg).compose request moves
  obtain ⟨versions, ⟨hwritten, hsorted, hle⟩, -⟩ :
      (Conn.after fromSlice (new cfg).compose request moves).InStep :=
    Conn.after_inStep (new cfg).compose request moves
  rw [hpublished] at hsent
  refine ⟨versions, ?_, hsorted, ?_⟩
  · rw [hwritten]
    apply List.map_congr_left
    intro i _
    rw [Watch.valueAt, hinitial, hsent]
    rfl
  · intro i hi
    have hbound := hle i hi
    rw [Watch.version, hsent] at hbound
    exact Nat.lt_succ_of_le hbound

/-- A connection with nothing left to tell has written the state of the supervisor. -/
theorem written_last (hpublished : Conn.published moves = published cfg is)
    (htask : (Conn.after fromSlice (new cfg).compose request moves).task = .waiting)
    (hseen : ¬ (Conn.after fromSlice (new cfg).compose request moves).seen <
      (Conn.after fromSlice (new cfg).compose request moves).watch.version) :
    (Conn.after fromSlice (new cfg).compose request moves).written.getLast? =
      some (after cfg is).compose := by
  obtain ⟨hinitial, hsent⟩ :
      (Conn.after fromSlice (new cfg).compose request moves).watch.initial = (new cfg).compose ∧
      (Conn.after fromSlice (new cfg).compose request moves).watch.sent = Conn.published moves :=
    Conn.after_watch (new cfg).compose request moves
  obtain ⟨versions, ⟨hwritten, hsorted, hle⟩, habreast⟩ :
      (Conn.after fromSlice (new cfg).compose request moves).InStep :=
    Conn.after_inStep (new cfg).compose request moves
  rw [hpublished] at hsent
  unfold Conn.Abreast at habreast
  rw [htask] at habreast
  obtain ⟨i, hlast, hi⟩ := habreast
  have hnewest : i = (Conn.after fromSlice (new cfg).compose request moves).watch.version := by
    have hbound := hle i (List.mem_of_getLast? hlast)
    omega
  have hborrow :=
    Watch.borrow_eq (Conn.after fromSlice (new cfg).compose request moves).watch
  rw [hinitial, hsent, published_getLast] at hborrow
  rw [hwritten, List.getLast?_map, hlast, Option.map_some, hnewest]
  exact congrArg some hborrow

/-- What a client has read of a connection. -/
theorem written_read {fromServer : List UInt8 → Option ServerMsg} {e : Json.Escape}
    (hpublished : Conn.published moves = published cfg is)
    (hfit : ∀ s ∈ broadcast cfg is, (Pipe.stateFrame e s).length ≤ maxFrameBytes)
    (hparse : ∀ s ∈ broadcast cfg is, fromServer (Pipe.stateFrame e s) = some (.state s))
    {chunks : List (List UInt8)} (hne : ∀ chunk ∈ chunks, chunk ≠ [])
    (hread : chunks.flatten <+:
      ((Conn.after fromSlice (new cfg).compose request moves).frames e).flatten) :
    ∃ got, got <+: (Conn.after fromSlice (new cfg).compose request moves).written ∧
      (chunks.flatten =
          ((Conn.after fromSlice (new cfg).compose request moves).frames e).flatten →
        got = (Conn.after fromSlice (new cfg).compose request moves).written) ∧
      Pipe.Session.toCome fromServer { reads := chunks.map .bytes } = (got, none) := by
  obtain ⟨versions, hwritten, -, hlt⟩ :=
    written_shown fromSlice request moves hpublished
  have hmem : ∀ s ∈ (Conn.after fromSlice (new cfg).compose request moves).written,
      s ∈ broadcast cfg is := by
    intro s hs
    rw [hwritten] at hs
    obtain ⟨i, hi, rfl⟩ := List.mem_map.mp hs
    rw [List.getD_eq_getElem _ _ (hlt i hi)]
    exact List.getElem_mem (hlt i hi)
  have hopen (decoder : FrameDecoder) : Pipe.framesToCome decoder [] = ([], none) := rfl
  obtain ⟨got, hgot, hall, hcome⟩ := Pipe.toCome_of_prefix (fun s hs => hfit s (hmem s hs))
    (fun s hs => hparse s (hmem s hs)) hne hread hopen
  rw [List.append_nil] at hcome
  exact ⟨got, hgot, hall, hcome⟩

end Caught

end Client

/-- The service has just started. -/
def startedRun : List Input := [⟨0, 0, .started⟩]

/-- A client connects while it starts. -/
def startedMoves : List Conn.Move :=
  [.connect, .accept 0] ++ (@published replyJson {} startedRun).map .publish ++
    List.replicate 5 (.resume .changed)

/-- The connection, which has told everything. -/
def startedConn : Conn := Conn.after Conn.parseFrame (new {}).compose [] startedMoves

/-- `serde_json::from_slice` on the frames of the run. -/
def parseStarted (bytes : List UInt8) : Option ServerMsg :=
  ((@broadcast replyJson {} startedRun).find?
    (fun s => Pipe.stateFrame .minimal s = bytes)).map .state

theorem startedMoves_published :
    Conn.published startedMoves = @published replyJson {} startedRun := by
  decide +kernel

theorem startedRun_fits :
    ∀ s ∈ @broadcast replyJson {} startedRun,
      (Pipe.stateFrame .minimal s).length ≤ maxFrameBytes := by
  decide +kernel

theorem startedRun_parses :
    ∀ s ∈ @broadcast replyJson {} startedRun,
      parseStarted (Pipe.stateFrame .minimal s) = some (.state s) := by
  decide +kernel

theorem startedConn_told :
    startedConn.task = .waiting ∧ ¬ startedConn.seen < startedConn.watch.version := by
  decide +kernel

/-- Everything in one read. -/
def startedChunks : List (List UInt8) := [(startedConn.frames .minimal).flatten]

theorem startedChunks_flatten :
    startedChunks.flatten = (startedConn.frames .minimal).flatten := by
  rw [startedChunks, List.flatten_singleton]

theorem startedChunks_ne : ∀ chunk ∈ startedChunks, chunk ≠ [] := by decide +kernel

/-- What `ipc_loop` does with the snapshots of a connection. -/
def startedTurns : List Tray.Move :=
  .connected :: startedConn.written.flatMap (fun s => [.read (some s), .resume, .resume, .resume])

end GdutNet.Supervisor
