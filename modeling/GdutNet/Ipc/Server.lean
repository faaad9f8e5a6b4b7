import GdutNet.Ipc.Frame
import GdutNet.Stream.Watch

/-!
# One client and its task

`serve_client` of `ipc/server.rs` beside the client it serves and the sender of
the snapshots, as one machine. The task stops at every `await`; which of the
parties moves next, which branch of `select!` completes and how much a read or
a write transfers is the input, so a run is an interleaving. A move that cannot
be made leaves the state as it is.

The pipe: what the client has written stays readable after it has closed; a
write of the service succeeds while the client is there and fails afterwards.
`serde_json::from_slice` is the parameter `fromSlice`.
-/

namespace GdutNet

/-- The client: it connects, writes its request and closes. -/
inductive Conn.Client where
  | away (request : List UInt8)
  | sending (left : List UInt8)
  | closed
deriving DecidableEq, Repr

/-- Where the task stands. -/
inductive Conn.Task where
  -- the connection is not accepted yet
  | listening
  -- before the first `borrow`
  | greeting
  -- the frame of the first snapshot is being written
  | writingFirst (snap : StateSnapshot)
  -- in `select!`
  | waiting
  -- `changed` has completed, before the `borrow` after it
  | notified
  -- the frame of a changed snapshot is being written
  | writing (snap : StateSnapshot)
  | done
deriving DecidableEq, Repr

structure Conn where
  watch : Watch StateSnapshot
  client : Conn.Client
  /-- Written by the client and not read yet. -/
  inbox : List UInt8 := []
  task : Conn.Task := .listening
  /-- The version the task's receiver has seen. -/
  seen : ℕ := 0
  decoder : FrameDecoder := {}
  /-- The snapshots whose frames were written, in order. -/
  written : List StateSnapshot := []
  /-- What was sent to `cmd_tx`. -/
  forwarded : List Command := []

inductive Conn.Branch where
  | changed
  | read (n : ℕ)
deriving DecidableEq, Repr

inductive Conn.Move where
  -- the service
  | publish (snap : StateSnapshot)
  | shut
  -- the client
  | connect
  | send (n : ℕ)
  | close
  -- the task: it is spawned with a receiver that has seen version `seen`
  | accept (seen : ℕ)
  | resume (branch : Conn.Branch)

namespace Conn

def new (initial : StateSnapshot) (request : List UInt8) : Conn :=
  { watch := ⟨initial, [], false⟩, client := .away request }

/-- The size of `buf` in `serve_client`. -/
def bufSize : ℕ := 4096

/-- `pipe.write_all` of a snapshot's frame. -/
def writeAll (c : Conn) (snap : StateSnapshot) : Conn :=
  match c.client with
  | .sending _ => { c with written := c.written ++ [snap], task := .waiting }
  | _ => { c with task := .done }

section Read

variable (fromSlice : List UInt8 → Option ClientMsg)

/-- The commands in some frames; frames that do not parse are ignored. -/
def commands (frames : List (List UInt8)) : List Command :=
  frames.filterMap (fun frame => (fromSlice frame).map (fun | .cmd c => c))

/-- `pipe.read` has returned `n` bytes. -/
def received (c : Conn) (n : ℕ) : Conn :=
  match c.decoder.feed (c.inbox.take n) with
  | (decoder, .ok frames) =>
      { c with decoder, inbox := c.inbox.drop n
               forwarded := c.forwarded ++ commands fromSlice frames }
  | (decoder, .error _) =>
      { c with decoder, inbox := c.inbox.drop n, task := .done }

/-- The branch of `select!` that reads: zero bytes once the client is gone. -/
def readBranch (c : Conn) (n : ℕ) : Conn :=
  if c.inbox = [] then
    if c.client = .closed then { c with task := .done } else c
  else if 0 < n ∧ n ≤ bufSize then c.received fromSlice n
  else c

/-- The branch of `select!` that waits for a newer snapshot. -/
def changedBranch (c : Conn) : Conn :=
  match c.watch.changed c.seen with
  | .pending => c
  | .failed => { c with task := .done }
  | .ready seen => { c with seen, task := .notified }

/-- The task runs to its next `await`. -/
def resume (c : Conn) (branch : Branch) : Conn :=
  match c.task with
  | .listening | .done => c
  | .greeting => { c with task := .writingFirst c.watch.borrow }
  | .writingFirst snap => c.writeAll snap
  | .waiting =>
      match branch with
      | .changed => c.changedBranch
      | .read n => c.readBranch fromSlice n
  | .notified => { c with task := .writing c.watch.borrow }
  | .writing snap => c.writeAll snap

def move (c : Conn) : Move → Conn
  | .publish snap => if c.watch.closed then c else { c with watch := c.watch.send snap }
  | .shut => { c with watch := c.watch.close }
  | .connect =>
      match c.client with
      | .away request => { c with client := .sending request }
      | _ => c
  | .send n =>
      match c.client with
      | .sending left =>
          { c with client := .sending (left.drop n), inbox := c.inbox ++ left.take n }
      | _ => c
  | .close => if c.client = .sending [] then { c with client := .closed } else c
  | .accept seen =>
      match c.client, c.task with
      | .away _, _ => c
      | _, .listening =>
          if seen ≤ c.watch.version then { c with task := .greeting, seen } else c
      | _, _ => c
  | .resume branch => c.resume fromSlice branch

def step (c : Conn) (m : Move) : Conn × Unit := (c.move fromSlice m, ())

def after (initial : StateSnapshot) (request : List UInt8) (moves : List Move) : Conn :=
  Machine.final (step fromSlice) (new initial request) moves

def history (initial : StateSnapshot) (request : List UInt8) (moves : List Move) :
    List (Machine.Step Conn Move Unit) :=
  Machine.trace (step fromSlice) (new initial request) moves

variable {fromSlice}

/-! ## What a move can do -/

/-- The task is writing the frame of `snap`. -/
def Writes (c : Conn) (snap : StateSnapshot) : Prop :=
  c.task = .writingFirst snap ∨ c.task = .writing snap

/-- Every effect of a move, with the state it needs. -/
inductive Turn (fromSlice : List UInt8 → Option ClientMsg) (c : Conn) : Move → Conn → Prop
  | stay {m : Move} (hidle : ∀ branch, m = .resume branch → ∀ snap, ¬ c.Writes snap) :
      Turn fromSlice c m c
  | publish (snap : StateSnapshot) :
      Turn fromSlice c (.publish snap) { c with watch := c.watch.send snap }
  | shut : Turn fromSlice c .shut { c with watch := c.watch.close }
  | connect {request : List UInt8} (hclient : c.client = .away request) :
      Turn fromSlice c .connect { c with client := .sending request }
  | send {left : List UInt8} (hclient : c.client = .sending left) (n : ℕ) :
      Turn fromSlice c (.send n)
        { c with client := .sending (left.drop n), inbox := c.inbox ++ left.take n }
  | close (hclient : c.client = .sending []) :
      Turn fromSlice c .close { c with client := .closed }
  | accept {seen : ℕ} (hclient : ∀ request, c.client ≠ .away request)
      (htask : c.task = .listening) (hseen : seen ≤ c.watch.version) :
      Turn fromSlice c (.accept seen) { c with task := .greeting, seen }
  | greet {branch : Branch} (htask : c.task = .greeting) :
      Turn fromSlice c (.resume branch) { c with task := .writingFirst c.watch.borrow }
  | wrote {branch : Branch} {snap : StateSnapshot} (htask : c.Writes snap)
      {left : List UInt8} (hclient : c.client = .sending left) :
      Turn fromSlice c (.resume branch)
        { c with written := c.written ++ [snap], task := .waiting }
  | refused {branch : Branch} {snap : StateSnapshot} (htask : c.Writes snap)
      (hclient : ∀ left, c.client ≠ .sending left) :
      Turn fromSlice c (.resume branch) { c with task := .done }
  | notice {seen : ℕ} (htask : c.task = .waiting)
      (hchanged : c.watch.changed c.seen = .ready seen) :
      Turn fromSlice c (.resume .changed) { c with seen, task := .notified }
  | orphan (htask : c.task = .waiting) (hchanged : c.watch.changed c.seen = .failed) :
      Turn fromSlice c (.resume .changed) { c with task := .done }
  | borrow {branch : Branch} (htask : c.task = .notified) :
      Turn fromSlice c (.resume branch) { c with task := .writing c.watch.borrow }
  | hangup {n : ℕ} (htask : c.task = .waiting) (hinbox : c.inbox = [])
      (hclient : c.client = .closed) :
      Turn fromSlice c (.resume (.read n)) { c with task := .done }
  | take {n : ℕ} {decoder : FrameDecoder} {frames : List (List UInt8)}
      (htask : c.task = .waiting)
      (hfeed : c.decoder.feed (c.inbox.take n) = (decoder, .ok frames)) :
      Turn fromSlice c (.resume (.read n))
        { c with decoder, inbox := c.inbox.drop n
                 forwarded := c.forwarded ++ commands fromSlice frames }
  | reject {n : ℕ} {decoder : FrameDecoder} (htask : c.task = .waiting)
      (hfeed : c.decoder.feed (c.inbox.take n) = (decoder, .error {})) :
      Turn fromSlice c (.resume (.read n))
        { c with decoder, inbox := c.inbox.drop n, task := .done }

theorem writeAll_turn {c : Conn} {snap : StateSnapshot} (htask : c.Writes snap)
    (branch : Branch) : Turn fromSlice c (.resume branch) (c.writeAll snap) := by
  unfold writeAll
  split
  · rename_i hclient
    exact .wrote htask hclient
  · rename_i hclient
    exact .refused htask (fun left h => hclient left h)

theorem readBranch_turn {c : Conn} (htask : c.task = .waiting) (n : ℕ) :
    Turn fromSlice c (.resume (.read n)) (c.readBranch fromSlice n) := by
  have hstay : Turn fromSlice c (.resume (.read n)) c := by
    apply Turn.stay
    rintro branch - snap (h | h) <;> simp [htask] at h
  unfold readBranch
  split
  · rename_i hinbox
    split
    · rename_i hclient
      exact .hangup htask hinbox hclient
    · exact hstay
  · split
    · unfold received
      split
      · rename_i hfeed
        exact .take htask hfeed
      · rename_i hfeed
        exact .reject htask hfeed
    · exact hstay

theorem changedBranch_turn {c : Conn} (htask : c.task = .waiting) :
    Turn fromSlice c (.resume .changed) c.changedBranch := by
  unfold changedBranch
  split
  · apply Turn.stay
    rintro branch - snap (h | h) <;> simp [htask] at h
  · rename_i hchanged
    exact .orphan htask hchanged
  · rename_i hchanged
    exact .notice htask hchanged

theorem resume_turn (c : Conn) (branch : Branch) :
    Turn fromSlice c (.resume branch) (c.resume fromSlice branch) := by
  have hstay : c.task = .listening ∨ c.task = .done →
      Turn fromSlice c (.resume branch) c := by
    intro htask
    apply Turn.stay
    rintro branch - snap (h | h) <;> simp [h] at htask
  unfold resume
  split
  · rename_i htask
    exact hstay (.inl htask)
  · rename_i htask
    exact hstay (.inr htask)
  · rename_i htask
    exact .greet htask
  · rename_i htask
    exact writeAll_turn (.inl htask) branch
  · rename_i htask
    split
    · exact changedBranch_turn htask
    · exact readBranch_turn htask _
  · rename_i htask
    exact .borrow htask
  · rename_i htask
    exact writeAll_turn (.inr htask) branch

theorem move_turn (c : Conn) (m : Move) : Turn fromSlice c m (c.move fromSlice m) := by
  cases m with
  | resume branch => exact resume_turn c branch
  | publish snap =>
      simp only [move]
      split
      · exact .stay (fun _ h => by cases h)
      · exact .publish snap
  | shut => exact .shut
  | connect =>
      simp only [move]
      split
      · rename_i hclient
        exact .connect hclient
      · exact .stay (fun _ h => by cases h)
  | send n =>
      simp only [move]
      split
      · rename_i hclient
        exact .send hclient n
      · exact .stay (fun _ h => by cases h)
  | close =>
      simp only [move]
      split
      · rename_i hclient
        exact .close hclient
      · exact .stay (fun _ h => by cases h)
  | accept seen =>
      simp only [move]
      split
      · exact .stay (fun _ h => by cases h)
      · rename_i htask hclient
        split
        · rename_i hseen
          exact .accept hclient htask hseen
        · exact .stay (fun _ h => by cases h)
      · exact .stay (fun _ h => by cases h)

/-! ## What the client is shown -/

/-- The frames that were written, in order. -/
def frames (e : Json.Escape) (c : Conn) : List (List UInt8) :=
  c.written.map (fun snap => encodeFrame (ServerMsg.toVec e) (.state snap))

/-- Where the task stands towards the channel, when the frames written so far
are of these versions: what it is about to write is not older than what it has
seen and has written, and while it waits, neither is the last frame. -/
def Abreast (c : Conn) (versions : List ℕ) : Prop :=
  match c.task with
  | .listening | .done => True
  | .greeting | .notified => c.seen ≤ c.watch.version
  | .writingFirst snap | .writing snap =>
      ∃ i, snap = c.watch.valueAt i ∧ c.seen ≤ i ∧ i ≤ c.watch.version ∧ ∀ j ∈ versions, j ≤ i
  | .waiting => ∃ i, versions.getLast? = some i ∧ c.seen ≤ i

theorem Abreast.publish {c : Conn} {versions : List ℕ} (h : c.Abreast versions)
    (snap : StateSnapshot) : Abreast { c with watch := c.watch.send snap } versions := by
  unfold Abreast at h ⊢
  simp only [Watch.version_send]
  cases htask : c.task with
  | listening => trivial
  | done => trivial
  | greeting =>
      rw [htask] at h
      exact Nat.le_succ_of_le h
  | notified =>
      rw [htask] at h
      exact Nat.le_succ_of_le h
  | writingFirst snap' =>
      rw [htask] at h
      obtain ⟨i, hsnap, hseen, hi, hlast⟩ := h
      exact ⟨i, by rw [Watch.valueAt_send hi, hsnap], hseen, Nat.le_succ_of_le hi, hlast⟩
  | writing snap' =>
      rw [htask] at h
      obtain ⟨i, hsnap, hseen, hi, hlast⟩ := h
      exact ⟨i, by rw [Watch.valueAt_send hi, hsnap], hseen, Nat.le_succ_of_le hi, hlast⟩
  | waiting =>
      rw [htask] at h
      exact h

/-- The snapshots written follow the channel. -/
def InStep (c : Conn) : Prop :=
  ∃ versions, c.watch.Follows c.written versions ∧ c.Abreast versions

theorem InStep.turn {c c' : Conn} {m : Move} (h : c.InStep) (ht : Turn fromSlice c m c') :
    c'.InStep := by
  obtain ⟨versions, hfollows, habreast⟩ := h
  cases ht with
  | stay _ => exact ⟨versions, hfollows, habreast⟩
  | publish snap => exact ⟨versions, hfollows.send snap, habreast.publish snap⟩
  | shut => exact ⟨versions, hfollows, habreast⟩
  | connect _ => exact ⟨versions, hfollows, habreast⟩
  | send _ n => exact ⟨versions, hfollows, habreast⟩
  | close _ => exact ⟨versions, hfollows, habreast⟩
  | accept _ _ hseen => exact ⟨versions, hfollows, hseen⟩
  | greet htask =>
      unfold Abreast at habreast
      rw [htask] at habreast
      exact ⟨versions, hfollows, c.watch.version, rfl, habreast, le_refl _, hfollows.2.2⟩
  | @wrote _ snap htask _ _ =>
      -- the frame that was held becomes the last one
      have hheld : ∃ i, snap = c.watch.valueAt i ∧ c.seen ≤ i ∧ i ≤ c.watch.version ∧
          ∀ j ∈ versions, j ≤ i := by
        unfold Abreast at habreast
        rcases htask with htask | htask <;> rw [htask] at habreast <;> exact habreast
      obtain ⟨i, rfl, hseen, hi, hlast⟩ := hheld
      exact ⟨versions ++ [i], hfollows.snoc hlast hi, i, by simp, hseen⟩
  | refused _ _ => exact ⟨versions, hfollows, trivial⟩
  | notice htask hchanged =>
      obtain ⟨-, rfl⟩ := Watch.changed_ready hchanged
      exact ⟨versions, hfollows, le_refl _⟩
  | orphan _ _ => exact ⟨versions, hfollows, trivial⟩
  | borrow htask =>
      unfold Abreast at habreast
      rw [htask] at habreast
      exact ⟨versions, hfollows, c.watch.version, rfl, habreast, le_refl _, hfollows.2.2⟩
  | hangup _ _ _ => exact ⟨versions, hfollows, trivial⟩
  | take htask _ => exact ⟨versions, hfollows, habreast⟩
  | reject _ _ => exact ⟨versions, hfollows, trivial⟩

theorem after_inStep (initial : StateSnapshot) (request : List UInt8) (moves : List Move) :
    (after fromSlice initial request moves).InStep := by
  apply Machine.final_induction
  · intro c m h
    exact h.turn (move_turn c m)
  · exact ⟨[], Watch.Follows.nil, trivial⟩

/-- What the service publishes, up to its end. -/
def published : List Move → List StateSnapshot
  | [] => []
  | .publish snap :: moves => snap :: published moves
  | .shut :: _ => []
  | _ :: moves => published moves

/-- Only the service's own moves touch the channel. -/
theorem move_watch (c : Conn) {m : Move} (hpublish : ∀ snap, m ≠ .publish snap)
    (hshut : m ≠ .shut) : (c.move fromSlice m).watch = c.watch := by
  have ht : Turn fromSlice c m (c.move fromSlice m) := move_turn c m
  generalize c.move fromSlice m = c' at ht ⊢
  cases ht with
  | publish snap => exact absurd rfl (hpublish snap)
  | shut => exact absurd rfl hshut
  | _ => rfl

theorem final_watch (c : Conn) (moves : List Move) :
    (Machine.final (step fromSlice) c moves).watch.initial = c.watch.initial ∧
    (Machine.final (step fromSlice) c moves).watch.sent =
      c.watch.sent ++ if c.watch.closed then [] else published moves := by
  induction moves generalizing c with
  | nil => simp [published]
  | cons m moves ih =>
      rw [Machine.final_cons]
      have hother : (∀ snap, m ≠ .publish snap) → m ≠ .shut →
          (Machine.final (step fromSlice) (c.move fromSlice m) moves).watch.initial =
              c.watch.initial ∧
            (Machine.final (step fromSlice) (c.move fromSlice m) moves).watch.sent =
              c.watch.sent ++ if c.watch.closed then [] else published moves := by
        intro hpublish hshut
        have h := ih (c.move fromSlice m)
        rwa [move_watch c hpublish hshut] at h
      cases m with
      | publish snap =>
          have h := ih (c.move fromSlice (.publish snap))
          cases hclosed : c.watch.closed with
          | true =>
              have hmove : c.move fromSlice (.publish snap) = c := by simp [move, hclosed]
              rw [hmove, hclosed] at h
              simpa [step, hmove] using h
          | false =>
              simpa [step, move, hclosed, Watch.send, published] using h
      | shut => simpa [step, move, Watch.close, published] using ih (c.move fromSlice .shut)
      | connect => exact hother (by simp) (by simp)
      | send n => exact hother (by simp) (by simp)
      | close => exact hother (by simp) (by simp)
      | accept seen => exact hother (by simp) (by simp)
      | resume branch => exact hother (by simp) (by simp)

theorem after_watch (initial : StateSnapshot) (request : List UInt8) (moves : List Move) :
    (after fromSlice initial request moves).watch.initial = initial ∧
    (after fromSlice initial request moves).watch.sent = published moves := by
  obtain ⟨hinitial, hsent⟩ := final_watch (new initial request) moves
  refine ⟨hinitial, hsent.trans ?_⟩
  simp [new]

end Read

/-- The frames a client is sent are those of the initial and the published
snapshots, in order, some left out and some repeated; and a task that waits with
nothing unseen has written the newest one last. -/
theorem client_shown_newest (fromSlice : List UInt8 → Option ClientMsg) (e : Json.Escape)
    (initial : StateSnapshot) (request : List UInt8) (moves : List Move) :
    (∃ versions : List ℕ, versions.Pairwise (· ≤ ·) ∧
      (∀ i ∈ versions, i ≤ (published moves).length) ∧
      (after fromSlice initial request moves).frames e = versions.map (fun i =>
        encodeFrame (ServerMsg.toVec e)
          (.state ((initial :: published moves).getD i initial)))) ∧
    ((after fromSlice initial request moves).task = .waiting →
      ¬ (after fromSlice initial request moves).seen <
        (after fromSlice initial request moves).watch.version →
      ((after fromSlice initial request moves).frames e).getLast? =
        some (encodeFrame (ServerMsg.toVec e)
          (.state ((published moves).getLast?.getD initial)))) := by
  obtain ⟨versions, hfollows, habreast⟩ : (after fromSlice initial request moves).InStep :=
    after_inStep initial request moves
  obtain ⟨hinitial, hsent⟩ :
      (after fromSlice initial request moves).watch.initial = initial ∧
      (after fromSlice initial request moves).watch.sent = published moves :=
    after_watch initial request moves
  obtain ⟨hwritten, hsorted, hle⟩ := hfollows
  constructor
  · refine ⟨versions, hsorted, ?_, ?_⟩
    · intro i hi
      rw [← hsent]
      exact hle i hi
    · rw [frames, hwritten, List.map_map]
      apply List.map_congr_left
      intro i _
      rw [Function.comp_apply, Watch.valueAt, hinitial, hsent]
  · intro htask hseen
    unfold Abreast at habreast
    rw [htask] at habreast
    obtain ⟨i, hlast, hi⟩ := habreast
    have hi' : i = (after fromSlice initial request moves).watch.version := by
      have hbound := hle i (List.mem_of_getLast? hlast)
      omega
    rw [frames, hwritten, List.map_map, List.getLast?_map, hlast, hi', Option.map_some,
      Function.comp_apply]
    have hnewest := Watch.borrow_eq (after fromSlice initial request moves).watch
    rw [hinitial, hsent] at hnewest
    rw [← hnewest]
    rfl

/-- `serde_json::from_slice` on the frames a client can send. -/
def parseFrame (bytes : List UInt8) : Option ClientMsg :=
  [ClientMsg.cmd .redial, .cmd (.setMode .wiredExclusive),
    .cmd (.setMode .wiredPlusStandby)].find? (fun m => encodeFrame ClientMsg.toVec m = bytes)

theorem parseFrame_encodeFrame (m : ClientMsg) :
    parseFrame (encodeFrame ClientMsg.toVec m) = some m := by
  rcases m with ⟨_ | (_ | _)⟩ <;> decide

/-- The snapshot the channel starts with. -/
def firstSnapshot : StateSnapshot :=
  { status := .idle, sinceUnix := none, ip := none, lastDropReason := none
    redialAttempts := 0, heartbeat := .off, mode := .wiredExclusive, wireless := {}
    events := [] }

/-- A snapshot is published while the first one is being written. -/
def publishedMoves : List Move :=
  [.connect, .accept 0, .resume .changed,
    .publish { firstSnapshot with status := .dialing }, .resume .changed, .resume .changed,
    .resume .changed, .resume .changed]

theorem client_shown_newest_dialing :
    (after parseFrame firstSnapshot [] publishedMoves).task = .waiting ∧
    ¬ (after parseFrame firstSnapshot [] publishedMoves).seen <
      (after parseFrame firstSnapshot [] publishedMoves).watch.version ∧
    ((after parseFrame firstSnapshot [] publishedMoves).frames Json.Escape.minimal).getLast? =
      some (encodeFrame (ServerMsg.toVec Json.Escape.minimal)
        (.state { firstSnapshot with status := .dialing })) := by
  have htask : (after parseFrame firstSnapshot [] publishedMoves).task = .waiting := by decide
  have hseen : ¬ (after parseFrame firstSnapshot [] publishedMoves).seen <
      (after parseFrame firstSnapshot [] publishedMoves).watch.version := by decide
  refine ⟨htask, hseen, ?_⟩
  exact (client_shown_newest parseFrame Json.Escape.minimal firstSnapshot [] publishedMoves).2
    htask hseen

/-! ## What the service is sent -/

section Request

variable {fromSlice : List UInt8 → Option ClientMsg} {request : List UInt8}

/-- What of its request the client has not written yet. -/
def unsent : Client → List UInt8
  | .away request => request
  | .sending left => left
  | .closed => []

/-- The request is the bytes the decoder was fed, those in the pipe and those
to come; and the commands in the bytes fed have been forwarded. -/
def Carries (fromSlice : List UInt8 → Option ClientMsg) (request : List UInt8)
    (c : Conn) : Prop :=
  ∃ fed, request = fed ++ (c.inbox ++ unsent c.client) ∧ c.decoder.Tracks fed ∧
    c.forwarded = commands fromSlice (Pieces.pieces isNewline [] fed)

theorem new_carries (initial : StateSnapshot) (request : List UInt8) :
    Carries fromSlice request (new initial request) :=
  ⟨[], rfl, FrameDecoder.Tracks.start, rfl⟩

/-- A read moves bytes of a request within the limit from the pipe to the
decoder, which accepts them. -/
theorem Carries.fed {c : Conn} (h : Carries fromSlice request c)
    (hfits : ¬ Pieces.Exceeds isNewline maxFrameBytes request) (n : ℕ) :
    ∃ frames, (c.decoder.feed (c.inbox.take n)).2 = .ok frames ∧
      Carries fromSlice request
        { c with decoder := (c.decoder.feed (c.inbox.take n)).1, inbox := c.inbox.drop n
                 forwarded := c.forwarded ++ commands fromSlice frames } := by
  obtain ⟨fed, hrequest, htracks, hforwarded⟩ := h
  obtain ⟨htracks', -, hok⟩ := FrameDecoder.feed_tracks htracks (c.inbox.take n)
  have hcut : request = (fed ++ c.inbox.take n) ++ (c.inbox.drop n ++ unsent c.client) := by
    rw [hrequest, List.append_assoc, ← List.append_assoc (c.inbox.take n),
      List.take_append_drop]
  have hprefix : ¬ Pieces.Exceeds isNewline maxFrameBytes (fed ++ c.inbox.take n) := by
    intro hexceeds
    apply hfits
    rw [hcut]
    exact hexceeds.append _
  refine ⟨_, hok hprefix, fed ++ c.inbox.take n, hcut, htracks', ?_⟩
  rw [hforwarded, Pieces.pieces_append]
  simp [commands]

theorem Carries.turn {c c' : Conn} {m : Move} (h : Carries fromSlice request c)
    (hfits : ¬ Pieces.Exceeds isNewline maxFrameBytes request)
    (ht : Turn fromSlice c m c') : Carries fromSlice request c' := by
  cases ht with
  | @connect request' hclient =>
      obtain ⟨fed, hrequest, hrest⟩ := h
      rw [hclient] at hrequest
      exact ⟨fed, hrequest, hrest⟩
  | @send left hclient n =>
      obtain ⟨fed, hrequest, hrest⟩ := h
      rw [hclient] at hrequest
      refine ⟨fed, ?_, hrest⟩
      show request = fed ++ ((c.inbox ++ left.take n) ++ left.drop n)
      rw [hrequest, List.append_assoc c.inbox, List.take_append_drop]
      rfl
  | close hclient =>
      obtain ⟨fed, hrequest, hrest⟩ := h
      rw [hclient] at hrequest
      exact ⟨fed, hrequest, hrest⟩
  | @take n decoder frames htask hfeed =>
      obtain ⟨frames', hok, hcarries⟩ := h.fed hfits n
      rw [hfeed] at hok hcarries
      obtain rfl : frames = frames' := Except.ok.inj hok
      exact hcarries
  | @reject n decoder htask hfeed =>
      obtain ⟨frames', hok, -⟩ := h.fed hfits n
      rw [hfeed] at hok
      cases hok
  | _ => exact h

/-- The task writes a snapshot to a client that has gone, with bytes of its
request still unread. -/
def Loses (r : Machine.Step Conn Move Unit) : Prop :=
  (∃ branch, r.input = .resume branch) ∧ (∃ snap, r.pre.Writes snap) ∧
    r.pre.client = .closed ∧ r.pre.inbox ≠ []

/-- How a connection whose service is up has come to its state. -/
structure Account (fromSlice : List UInt8 → Option ClientMsg) (request : List UInt8)
    (past : List (Machine.Step Conn Move Unit)) (c : Conn) : Prop where
  carries : Carries fromSlice request c
  serving : c.watch.closed = false
  met : c.task ≠ .listening → ∀ r, c.client ≠ .away r
  live : c.task ≠ .done → ∀ r ∈ past, ¬ Loses r
  ended : c.task = .done → c.client = .closed ∧ (c.inbox = [] ↔ ∀ r ∈ past, ¬ Loses r)

variable {past : List (Machine.Step Conn Move Unit)} {c c' : Conn} {m : Move}

theorem Writes.not_task (h : ∃ snap, c.Writes snap) :
    c.task ≠ .greeting ∧ c.task ≠ .waiting ∧ c.task ≠ .notified ∧ c.task ≠ .done := by
  obtain ⟨snap, h | h⟩ := h <;> simp [h]

/-- A turn that loses the request ends the task, and changes nothing else. -/
theorem Turn.of_loses (ht : Turn fromSlice c m c') (hl : Loses ⟨c, m, (), c'⟩) :
    c' = { c with task := .done } := by
  obtain ⟨⟨branch, hm⟩, hwrites, hclosed, -⟩ := hl
  have hclosed' : c.client = .closed := hclosed
  obtain ⟨hgreeting, hwaiting, hnotified, -⟩ := Writes.not_task hwrites
  obtain ⟨snap, hsnap⟩ := hwrites
  cases ht with
  | stay hidle => exact absurd hsnap (hidle branch hm snap)
  | wrote _ hclient =>
      rw [hclosed'] at hclient
      cases hclient
  | refused _ _ => rfl
  | greet htask => exact absurd htask hgreeting
  | notice htask _ => exact absurd htask hwaiting
  | orphan htask _ => exact absurd htask hwaiting
  | borrow htask => exact absurd htask hnotified
  | hangup htask _ _ => exact absurd htask hwaiting
  | take htask _ => exact absurd htask hwaiting
  | reject htask _ => exact absurd htask hwaiting
  | _ => cases hm

/-- A finished task stays so, and with the client gone nothing moves. -/
theorem Turn.of_done (ht : Turn fromSlice c m c') (hdone : c.task = .done)
    (hclosed : c.client = .closed) :
    c'.task = .done ∧ c'.client = .closed ∧ c'.inbox = c.inbox := by
  have hwrites : ∀ snap, ¬ c.Writes snap := by
    rintro snap (h | h) <;> simp [hdone] at h
  cases ht with
  | stay _ => exact ⟨hdone, hclosed, rfl⟩
  | publish _ => exact ⟨hdone, hclosed, rfl⟩
  | shut => exact ⟨hdone, hclosed, rfl⟩
  | connect hclient => simp [hclosed] at hclient
  | send hclient _ => simp [hclosed] at hclient
  | close hclient => simp [hclosed] at hclient
  | wrote h _ => exact absurd h (hwrites _)
  | refused h _ => exact absurd h (hwrites _)
  | accept _ htask _ => simp [hdone] at htask
  | greet htask => simp [hdone] at htask
  | notice htask _ => simp [hdone] at htask
  | orphan htask _ => simp [hdone] at htask
  | borrow htask => simp [hdone] at htask
  | hangup htask _ _ => simp [hdone] at htask
  | take htask _ => simp [hdone] at htask
  | reject htask _ => simp [hdone] at htask

/-- The ways a task that was running ends while the service is up: a write that
fails, or a read that finds the client gone and the pipe empty. -/
theorem Account.ends (h : Account fromSlice request past c)
    (hfits : ¬ Pieces.Exceeds isNewline maxFrameBytes request)
    (ht : Turn fromSlice c m c') (hlive : c.task ≠ .done) (hdone : c'.task = .done) :
    c'.client = .closed ∧ (c'.inbox = [] ↔ ¬ Loses ⟨c, m, (), c'⟩) := by
  cases ht with
  | @refused branch snap htask hclient =>
      have hmet := h.met (by rcases htask with htask | htask <;> simp [htask])
      have hclosed : c.client = .closed := by
        cases hc : c.client with
        | away r => exact absurd hc (hmet r)
        | sending left => exact absurd hc (hclient left)
        | closed => rfl
      refine ⟨hclosed, ?_⟩
      constructor
      · intro hinbox hl
        exact hl.2.2.2 hinbox
      · intro hl
        by_contra hinbox
        exact hl ⟨⟨branch, rfl⟩, ⟨snap, htask⟩, hclosed, hinbox⟩
  | hangup htask hinbox hclosed =>
      refine ⟨hclosed, ?_⟩
      constructor
      · intro _ hl
        exact hl.2.2.2 hinbox
      · intro _
        exact hinbox
  | orphan _ hchanged =>
      exfalso
      unfold Watch.changed at hchanged
      split at hchanged
      · cases hchanged
      · simp [h.serving] at hchanged
  | reject _ hfeed =>
      obtain ⟨frames, hok, -⟩ := h.carries.fed hfits _
      rw [hfeed] at hok
      cases hok
  | stay _ => exact absurd hdone hlive
  | publish _ => exact absurd hdone hlive
  | shut => exact absurd hdone hlive
  | connect _ => exact absurd hdone hlive
  | send _ _ => exact absurd hdone hlive
  | close _ => exact absurd hdone hlive
  | take htask _ => exact absurd hdone hlive
  | _ => cases hdone

theorem Account.met_turn (h : Account fromSlice request past c)
    (ht : Turn fromSlice c m c') : c'.task ≠ .listening → ∀ r, c'.client ≠ .away r := by
  have hrunning : ∀ {t : Task}, c.task = t → t ≠ .listening → ∀ r, c.client ≠ .away r := by
    rintro t rfl htask
    exact h.met htask
  intro htask
  cases ht with
  | connect _ => simp
  | send _ _ => simp
  | close _ => simp
  | accept hclient _ _ => exact hclient
  | greet ht => exact hrunning ht (by simp)
  | wrote ht _ => rcases ht with ht | ht <;> exact hrunning ht (by simp)
  | refused ht _ => rcases ht with ht | ht <;> exact hrunning ht (by simp)
  | notice ht _ => exact hrunning ht (by simp)
  | orphan ht _ => exact hrunning ht (by simp)
  | borrow ht => exact hrunning ht (by simp)
  | hangup ht _ _ => exact hrunning ht (by simp)
  | reject ht _ => exact hrunning ht (by simp)
  | _ => exact h.met htask

theorem Account.turn (h : Account fromSlice request past c)
    (hfits : ¬ Pieces.Exceeds isNewline maxFrameBytes request)
    (ht : Turn fromSlice c m c') (hm : m ≠ .shut) :
    Account fromSlice request (past ++ [⟨c, m, (), c'⟩]) c' := by
  have hpast : (∀ r ∈ past ++ [(⟨c, m, (), c'⟩ : Machine.Step Conn Move Unit)], ¬ Loses r) ↔
      (∀ r ∈ past, ¬ Loses r) ∧ ¬ Loses ⟨c, m, (), c'⟩ := by
    rw [List.forall_mem_append, List.forall_mem_singleton]
  have hserving : c'.watch.closed = false := by
    cases ht with
    | shut => exact absurd rfl hm
    | _ => exact h.serving
  by_cases hdone : c.task = .done
  · obtain ⟨hclosed, hiff⟩ := h.ended hdone
    obtain ⟨hdone', hclosed', hinbox⟩ := ht.of_done hdone hclosed
    have hkeeps : ¬ Loses ⟨c, m, (), c'⟩ := fun hl => (Writes.not_task hl.2.1).2.2.2 hdone
    refine ⟨h.carries.turn hfits ht, hserving, h.met_turn ht, fun hn => absurd hdone' hn, ?_⟩
    intro _
    rw [hpast, hinbox]
    exact ⟨hclosed', by simp [hiff, hkeeps]⟩
  · have hlive := h.live hdone
    refine ⟨h.carries.turn hfits ht, hserving, h.met_turn ht, ?_, ?_⟩
    · intro hdone'
      rw [hpast]
      refine ⟨hlive, fun hl => hdone' ?_⟩
      rw [ht.of_loses hl]
    · intro hdone'
      obtain ⟨hclosed', hiff⟩ := h.ends hfits ht hdone hdone'
      rw [hpast]
      exact ⟨hclosed', hiff.trans ⟨fun hkeeps => ⟨hlive, hkeeps⟩, And.right⟩⟩

theorem history_account (hfits : ¬ Pieces.Exceeds isNewline maxFrameBytes request)
    (initial : StateSnapshot) {moves : List Move} (hserving : Move.shut ∉ moves) :
    Account fromSlice request (history fromSlice initial request moves)
      (after fromSlice initial request moves) := by
  refine Machine.history_induction (A := fun r => r.input ≠ .shut) ?_ ?_ moves ?_
  · exact ⟨new_carries initial request, rfl, by simp [new], by simp, by simp [new]⟩
  · intro past c m h hm
    exact h.turn hfits (move_turn c m) hm
  · intro r hr
    obtain ⟨xs, m, ys, rfl, rfl⟩ := Machine.exists_split_of_mem hr
    rintro rfl
    simp at hserving

/-! ## The end of a task -/

/-- How many times a task whose client has gone can still resume. -/
def turnsLeft (c : Conn) : ℕ :=
  match c.task with
  | .listening | .done => 0
  | .writingFirst _ | .writing _ => 1
  | .greeting | .notified => 2
  | .waiting => c.inbox.length + 1

theorem received_turnsLeft (htask : c.task = .waiting) (hinbox : c.inbox ≠ []) :
    (c.received fromSlice bufSize).client = c.client ∧
    (c.received fromSlice bufSize).task ≠ .listening ∧
    (c.received fromSlice bufSize).turnsLeft ≤ c.inbox.length := by
  have hlen : 0 < c.inbox.length := List.length_pos_iff.mpr hinbox
  unfold received
  split
  · refine ⟨rfl, by simp [htask], ?_⟩
    simp only [turnsLeft, htask, List.length_drop, bufSize]
    omega
  · exact ⟨rfl, by simp, Nat.zero_le _⟩

theorem resume_turnsLeft (hclosed : c.client = .closed) (htask : c.task ≠ .listening) :
    (c.resume fromSlice (.read bufSize)).client = .closed ∧
    (c.resume fromSlice (.read bufSize)).task ≠ .listening ∧
    (c.resume fromSlice (.read bufSize)).turnsLeft ≤ c.turnsLeft - 1 := by
  cases ht : c.task with
  | listening => exact absurd ht htask
  | greeting => simp [resume, turnsLeft, ht, hclosed]
  | writingFirst snap => simp [resume, writeAll, turnsLeft, ht, hclosed]
  | notified => simp [resume, turnsLeft, ht, hclosed]
  | writing snap => simp [resume, writeAll, turnsLeft, ht, hclosed]
  | done => simp [resume, turnsLeft, ht, hclosed]
  | waiting =>
      have hleft : c.turnsLeft - 1 = c.inbox.length := by simp [turnsLeft, ht]
      have hresume : c.resume fromSlice (.read bufSize) = c.readBranch fromSlice bufSize := by
        simp [resume, ht]
      rw [hleft, hresume]
      unfold readBranch
      by_cases hinbox : c.inbox = []
      · rw [if_pos hinbox, if_pos hclosed]
        exact ⟨hclosed, by simp, Nat.zero_le _⟩
      · rw [if_neg hinbox, if_pos (by decide)]
        obtain ⟨hclient, hnot, hle⟩ := received_turnsLeft ht hinbox
        exact ⟨hclient.trans hclosed, hnot, hle⟩

/-- The task of a client that has gone runs to its end if it only ever reads. -/
theorem reads_to_end (k : ℕ) (c : Conn) (hclosed : c.client = .closed)
    (htask : c.task ≠ .listening) (hk : c.turnsLeft ≤ k) :
    (Machine.final (step fromSlice) c
      (List.replicate k (.resume (.read bufSize)))).task = .done := by
  induction k generalizing c with
  | zero =>
      rw [List.replicate_zero, Machine.final_nil]
      cases ht : c.task <;> simp [turnsLeft, ht] at hk htask ⊢
  | succ k ih =>
      rw [List.replicate_succ, Machine.final_cons]
      obtain ⟨hclosed', htask', hle⟩ := resume_turnsLeft hclosed htask
      exact ih (c.resume fromSlice (.read bufSize)) hclosed' htask' (by omega)

/-- The client connects, writes what is left, closes, and is accepted; what has
happened already is skipped. -/
def goAway (c : Conn) : List Move :=
  [.connect, .send (unsent c.client).length, .close, .accept 0]

theorem goAway_closed (c : Conn) :
    (Machine.final (step fromSlice) c c.goAway).client = .closed ∧
    (Machine.final (step fromSlice) c c.goAway).task ≠ .listening := by
  cases hclient : c.client <;> cases htask : c.task <;>
    simp [goAway, Machine.final, step, move, unsent, hclient, htask]

/-- Whatever has happened so far, the connection can come to its end. -/
theorem can_end (c : Conn) : ∃ moves, Move.shut ∉ moves ∧
    (Machine.final (step fromSlice) c moves).task = .done := by
  obtain ⟨hclosed, htask⟩ :
      (Machine.final (step fromSlice) c c.goAway).client = .closed ∧
      (Machine.final (step fromSlice) c c.goAway).task ≠ .listening := goAway_closed c
  let k := (Machine.final (step fromSlice) c c.goAway).turnsLeft
  refine ⟨c.goAway ++ List.replicate k (.resume (.read bufSize)), ?_, ?_⟩
  · simp [goAway, List.mem_replicate]
  · rw [Machine.final_append]
    exact reads_to_end k _ hclosed htask (le_refl _)

end Request

/-! ## One command -/

/-- The request of a client that sends one command. -/
def cmdFrame (cmd : Command) : List UInt8 := encodeFrame ClientMsg.toVec (.cmd cmd)

theorem cmdFrame_fits (cmd : Command) :
    ¬ Pieces.Exceeds isNewline maxFrameBytes (cmdFrame cmd) := by
  have hlen : ∀ m ∈ [ClientMsg.cmd cmd],
      (encodeFrame ClientMsg.toVec m).length ≤ maxFrameBytes := by
    intro m hm
    rw [List.mem_singleton.mp hm]
    rcases cmd with _ | (_ | _) <;> decide
  have hfits := frames_not_exceed (fun m => newline_notMem m.toVec_printable) hlen
  simpa [cmdFrame] using hfits

/-- Nothing short of the whole frame holds a command. -/
theorem pieces_cmdFrame {cmd : Command} {fed left : List UInt8}
    (h : cmdFrame cmd = fed ++ left) :
    Pieces.pieces isNewline [] fed = if left = [] then [cmdFrame cmd] else [] := by
  have hopen : ∀ b ∈ (ClientMsg.cmd cmd).toVec, isNewline b = false := by
    intro b hb
    have hne : b ≠ newline := fun hn =>
      newline_notMem (ClientMsg.cmd cmd).toVec_printable (hn ▸ hb)
    simpa [isNewline] using hne
  split
  · rename_i hleft
    rw [hleft, List.append_nil] at h
    rw [← h]
    exact Pieces.pieces_of_closed hopen (by decide) []
  · rename_i hleft
    -- what was fed is part of the JSON text, before the newline
    apply Pieces.pieces_of_open
    intro b hb
    have hdrop : fed <+: (ClientMsg.cmd cmd).toVec := by
      have hprefix : fed <+: (ClientMsg.cmd cmd).toVec ++ [newline] := ⟨left, h.symm⟩
      rcases List.prefix_concat_iff.mp hprefix with heq | hlt
      · exfalso
        apply hleft
        have hlen := congrArg List.length h
        rw [heq, List.length_append] at hlen
        apply List.length_eq_zero_iff.mp
        simp only [cmdFrame, encodeFrame] at hlen
        omega
      · exact hlt
    exact hopen b (hdrop.subset hb)

/-- A finished connection has forwarded the command exactly if no snapshot was
written to the client after it had gone and before its command was read. In any
state the command was forwarded at most once, and the connection can come to
its end. -/
theorem command_forwarded_iff (fromSlice : List UInt8 → Option ClientMsg)
    (hparse : ∀ m, fromSlice (encodeFrame ClientMsg.toVec m) = some m)
    (initial : StateSnapshot) (cmd : Command) (moves : List Move)
    (hserving : Move.shut ∉ moves) :
    ((after fromSlice initial (cmdFrame cmd) moves).task = .done →
      ((after fromSlice initial (cmdFrame cmd) moves).forwarded = [cmd] ↔
        ∀ r ∈ history fromSlice initial (cmdFrame cmd) moves, ¬ Loses r)) ∧
    ((after fromSlice initial (cmdFrame cmd) moves).forwarded = [] ∨
      (after fromSlice initial (cmdFrame cmd) moves).forwarded = [cmd]) ∧
    ∃ more, Move.shut ∉ more ∧
      (after fromSlice initial (cmdFrame cmd) (moves ++ more)).task = .done := by
  have haccount :
      Account fromSlice (cmdFrame cmd) _ (after fromSlice initial (cmdFrame cmd) moves) :=
    history_account (cmdFrame_fits cmd) initial hserving
  obtain ⟨fed, hrequest, -, hforwarded⟩ := haccount.carries
  have hcmd : commands fromSlice [cmdFrame cmd] = [cmd] := by
    simp [commands, cmdFrame, hparse]
  rw [pieces_cmdFrame hrequest] at hforwarded
  refine ⟨?_, ?_, ?_⟩
  · intro hdone
    obtain ⟨hclosed, hiff⟩ := haccount.ended hdone
    rw [← hiff, hforwarded, hclosed]
    simp only [unsent, List.append_nil]
    split
    · rename_i hinbox
      exact iff_of_true hcmd hinbox
    · rename_i hinbox
      exact iff_of_false (by simp [commands]) hinbox
  · rw [hforwarded]
    split
    · exact .inr hcmd
    · exact .inl rfl
  · obtain ⟨more, hmore, hdone⟩ : ∃ more, Move.shut ∉ more ∧
        (Machine.final (step fromSlice) (after fromSlice initial (cmdFrame cmd) moves)
          more).task = .done := can_end _
    refine ⟨more, hmore, ?_⟩
    rw [after, Machine.final_append]
    exact hdone

/-- The client closes once it was greeted; its command is read afterwards. -/
def deliveredMoves : List Move :=
  [.connect, .accept 0, .resume .changed, .resume .changed, .send 100, .close,
    .resume (.read bufSize), .resume (.read bufSize)]

theorem command_forwarded_after_greeting :
    (after parseFrame firstSnapshot (cmdFrame .redial) deliveredMoves).task = .done ∧
    ((after parseFrame firstSnapshot (cmdFrame .redial) deliveredMoves).forwarded = [.redial] ↔
      ∀ r ∈ history parseFrame firstSnapshot (cmdFrame .redial) deliveredMoves, ¬ Loses r) := by
  have hdone : (after parseFrame firstSnapshot (cmdFrame .redial) deliveredMoves).task =
      .done := by decide
  refine ⟨hdone, ?_⟩
  exact (command_forwarded_iff parseFrame parseFrame_encodeFrame firstSnapshot .redial
    deliveredMoves (by simp [deliveredMoves])).1 hdone

/-- The client closes before the first snapshot is written. -/
def lostMoves : List Move :=
  [.connect, .send 100, .close, .accept 0, .resume .changed, .resume .changed]

theorem command_lost_before_greeting :
    Move.shut ∉ lostMoves ∧
    (after parseFrame firstSnapshot (cmdFrame .redial) lostMoves).task = .done ∧
    (after parseFrame firstSnapshot (cmdFrame .redial) lostMoves).forwarded = [] := by
  refine ⟨by simp [lostMoves], ?_, ?_⟩
  · decide
  · decide

end Conn

end GdutNet
