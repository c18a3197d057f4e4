import Vmlab.Library.LengthPrefixed

/-!
# The emulated NIC's link worker

How frames come from the switch to the NIC model (`nic/mod.rs`). A round offers what is held, then reads and splits off
complete frames. Nothing is lost as long as the hold queue has room for the frames that come in whole.
-/

namespace Vmlab.Net.NicLink

open Library LengthPrefixed List

def maxFrame : Nat := 65535

def maxHeld : Nat := 64

/-- The worker's buffers while the link is up, with the bytes still in the socket and what the NIC has taken. -/
structure Worker where
  pending : List UInt8
  input : List UInt8
  held : List (List UInt8)
  accepted : List (List UInt8)
  deriving DecidableEq

/-- How many frames the NIC takes before it refuses one, and how many bytes each read gets. -/
structure Round where
  room : Nat
  reads : List Nat

namespace Worker

def offer (worker : Worker) (room : Nat) : Worker :=
  { worker with accepted := worker.accepted ++ worker.held.take room, held := worker.held.drop room }

def read (worker : Worker) : List Nat → Worker
  | [] => worker
  | size :: later =>
    let count := min size 16384
    let input := worker.input ++ worker.pending.take count
    let next := { worker with input, pending := worker.pending.drop count }
    if 4 * (maxFrame + 4) < input.length then next else next.read later

/-- The splitting loop of `read_frames`; every turn of it takes bytes from the input. -/
def split (worker : Worker) : Nat → Except String Worker
  | 0 => .ok worker
  | fuel + 1 =>
    if worker.input.length < 4 then .ok worker
    else
      let length := bigEndian (worker.input.take 4)
      if maxFrame < length then .error "frame longer than the stream allows"
      else if worker.input.length < 4 + length then .ok worker
      else
        let frame := (worker.input.drop 4).take length
        let held := if worker.held.length < maxHeld * 2 then worker.held ++ [frame] else worker.held
        split { worker with input := worker.input.drop (4 + length), held } fuel

def readFrames (worker : Worker) (reads : List Nat) : Except String Worker :=
  let worker := worker.read reads
  worker.split worker.input.length

def round (worker : Worker) (round : Round) : Except String Worker :=
  let worker := worker.offer round.room
  if worker.held.length < maxHeld then worker.readFrames round.reads else .ok worker

def run (worker : Worker) (rounds : List Round) : Except String Worker := rounds.foldlM round worker

/-- The frames sent are those the NIC took, those held for it and those still in the stream, in this order; of the
latter none has come in whole. -/
def Delivers (frames : List (List UInt8)) (worker : Worker) : Prop :=
  ∃ rest, frames = worker.accepted ++ worker.held ++ rest ∧ stream 4 rest = worker.input ++ worker.pending ∧
    (worker.input = [] ∨ worker.input.length < (stream 4 (rest.take 1)).length)

/-- How many frames at the front of the input have come in whole. -/
def whole (input : List UInt8) : Nat → Nat
  | 0 => 0
  | fuel + 1 =>
    let length := bigEndian (input.take 4)
    if input.length < 4 ∨ input.length < 4 + length then 0 else whole (input.drop (4 + length)) fuel + 1

/-- In every round that reads, the queue has room for what is held and for the frames that have then come in whole. -/
def HasRoom : Worker → List Round → Prop
  | _, [] => True
  | worker, round :: later =>
    let offered := worker.offer round.room
    let input := (offered.read round.reads).input
    (offered.held.length < maxHeld → offered.held.length + whole input input.length ≤ maxHeld * 2) ∧
      ∀ next, worker.round round = .ok next → next.HasRoom later

variable {worker : Worker} {frames rest : List (List UInt8)}

theorem read_bytes (reads : List Nat) (worker : Worker) : ∃ input pending,
    worker.read reads = { worker with input, pending } ∧ input ++ pending = worker.input ++ worker.pending := by
  induction reads generalizing worker with
  | nil => exact ⟨_, _, rfl, rfl⟩
  | cons size later ih =>
    unfold read
    dsimp only
    split
    · exact ⟨_, _, rfl, by simp⟩
    · obtain ⟨input, pending, shape, same⟩ := ih _
      exact ⟨input, pending, shape, by simpa using same⟩

theorem split_input {frame tail pending input : List UInt8} (short : frame.length ≤ maxFrame)
    (same : encode 4 frame ++ tail = input ++ pending) (prefixed : 4 ≤ input.length) :
    bigEndian (input.take 4) = frame.length ∧ (4 + frame.length ≤ input.length →
      (input.drop 4).take frame.length = frame ∧ tail = input.drop (4 + frame.length) ++ pending) := by
  have head : input.take 4 = toBigEndian 4 frame.length := by
    rw [← take_append_of_le_length prefixed, ← same, encode, append_assoc, take_left' (by simp)]
  unfold maxFrame at short
  refine ⟨by rw [head, bigEndian_toBigEndian (by omega)], fun whole => ?_⟩
  have bytes : encode 4 frame = input.take (4 + frame.length) ∧ tail = input.drop (4 + frame.length) ++ pending := by
    refine append_inj ?_ (by simp [whole])
    rw [same, ← append_assoc, take_append_drop]
  refine ⟨?_, bytes.2⟩
  rw [take_drop, ← bytes.1, encode, drop_left' (by simp)]

theorem split_delivers (fuel : Nat) (enough : worker.input.length ≤ fuel)
    (short : ∀ frame ∈ rest, frame.length ≤ maxFrame) (bytes : stream 4 rest = worker.input ++ worker.pending)
    (room : worker.held.length + whole worker.input fuel ≤ maxHeld * 2) :
    ∃ next, worker.split fuel = .ok next ∧ next.Delivers (worker.accepted ++ worker.held ++ rest) := by
  induction fuel generalizing worker rest with
  | zero => exact ⟨worker, rfl, rest, rfl, bytes, .inl (length_eq_zero_iff.mp (by omega))⟩
  | succ fuel ih =>
    cases rest with
    | nil =>
      have none : worker.input = [] := (append_eq_nil_iff.mp bytes.symm).1
      exact ⟨worker, by simp [split, none], [], rfl, bytes, .inl none⟩
    | cons frame later =>
      have waits (partly : worker.input.length < 4 + frame.length) :
          worker.Delivers (worker.accepted ++ worker.held ++ frame :: later) :=
        ⟨_, rfl, bytes, .inr (by simpa using partly)⟩
      obtain ⟨fits, others⟩ := forall_mem_cons.mp short
      rw [stream_cons] at bytes
      unfold split
      split
      · exact ⟨worker, rfl, waits (by omega)⟩
      next long =>
      obtain ⟨length, complete⟩ := split_input fits bytes (Nat.le_of_not_lt long)
      simp only [length, if_neg (Nat.not_lt.mpr fits)]
      split
      · next partly => exact ⟨worker, rfl, waits partly⟩
      next arrived =>
      obtain ⟨body, tail⟩ := complete (Nat.le_of_not_lt arrived)
      -- The frame that is split off is one of those that the queue has room for.
      simp only [whole, length, long, arrived, or_self, if_false] at room
      have less : (worker.input.drop (4 + frame.length)).length ≤ fuel := by
        rw [length_drop]
        omega
      rw [body, if_pos (by omega)]
      obtain ⟨next, ran, delivers⟩ := @ih ⟨_, _, worker.held ++ [frame], worker.accepted⟩ _ less others tail
        (by simpa [Nat.add_assoc, Nat.add_comm 1] using room)
      exact ⟨next, ran, by simpa using delivers⟩

theorem round_delivers {round : Round} {later : List Round} (short : ∀ frame ∈ frames, frame.length ≤ maxFrame)
    (room : worker.HasRoom (round :: later)) (delivers : worker.Delivers frames) :
    ∃ next, worker.round round = .ok next ∧ next.Delivers frames := by
  obtain ⟨rest, rfl, bytes, partly⟩ := delivers
  obtain ⟨room, -⟩ := room
  unfold Worker.round
  dsimp only
  split
  · next reads =>
    obtain ⟨input, pending, shape, same⟩ := read_bytes round.reads (worker.offer round.room)
    have room := room reads
    rw [shape] at room
    rw [readFrames, shape]
    obtain ⟨next, ran, delivers⟩ := @split_delivers { worker.offer round.room with input, pending } rest _ le_rfl
      (fun frame member => short frame (mem_append_right _ member)) (bytes.trans same.symm) room
    exact ⟨next, ran, by simpa [offer] using delivers⟩
  · exact ⟨_, rfl, rest, by simp [offer], bytes, partly⟩

end Worker

end Vmlab.Net.NicLink
