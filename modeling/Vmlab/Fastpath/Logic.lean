import Vmlab.Net.Frame
import Vmlab.Library.SortedMap
import Vmlab.Net.Framing

/-!
# Fast-path decision logic

The boundary state machine that the stream-verdict program runs on every
socket buffer, and the forwarding decision for a buffer that is one whole
frame (`ebpf/fastpath-logic/src/lib.rs`).
-/

namespace Vmlab.Fastpath

open Library Net LengthPrefixed List

def prefixLen : Nat := 4
/-- Smallest parsable frame: destination, source and ethertype. -/
def ethHeaderLen : Nat := 14
def maxFrameLen : Nat := 65536 + 14 + 4
/-- Frame boundaries walked within a single buffer before giving up. -/
def maxBoundariesPerSkb : Nat := 16

def flagDesync : UInt8 := 1

structure FrameState where
  remaining : Nat
  prefixBuf : List UInt8
  prefixHave : Nat
  flags : UInt8

def FrameState.initial : FrameState := { remaining := 0, prefixBuf := [0, 0, 0, 0], prefixHave := 0, flags := 0 }

def FrameState.desynced (st : FrameState) : FrameState := { st with flags := st.flags ||| flagDesync }

def FrameState.isDesynced (st : FrameState) : Bool := st.flags &&& flagDesync ≠ 0

inductive SkbClass where
  | aligned (frameLen : Nat)
  | passthrough
  | desync

abbrev Reader := Nat → Nat → Option (List UInt8)

def walkBoundaries (read : Reader) (len : Nat) : Nat → Nat → FrameState → SkbClass × FrameState
  | 0, _, st => (.desync, st.desynced)
  | budget + 1, off, st =>
    if len ≤ off then (.passthrough, st)
    else
      let start := st.prefixHave % 4
      let take := min (prefixLen - start) (len - off)
      match read off take with
      | none => (.desync, st.desynced)
      | some piece =>
        let st := { st with
          prefixBuf := overwrite st.prefixBuf start piece
          prefixHave := start + take }
        let off := off + take
        -- The buffer ended inside the prefix; the next one resumes it.
        if st.prefixHave < prefixLen then (.passthrough, st)
        else
          let flen := bigEndian st.prefixBuf
          let st := { st with prefixHave := 0 }
          if maxFrameLen < flen then (.desync, st.desynced)
          else if len - off ≤ flen then
            (.passthrough, { st with remaining := flen - (len - off) })
          else walkBoundaries read len budget (off + flen) st

/-- Advance the boundary state machine across one buffer of `len` bytes. -/
def stepSkb (st : FrameState) (len : Nat) (read : Reader) : SkbClass × FrameState :=
  if st.isDesynced then (.passthrough, st)
  else if 0 < st.remaining ∧ len ≤ st.remaining then
    (.passthrough, { st with remaining := st.remaining - len })
  else
    let off := st.remaining
    let st := { st with remaining := 0 }
    if off = 0 ∧ st.prefixHave = 0 ∧ prefixLen < len then
      match read 0 4 with
      | none => (.desync, st.desynced)
      | some bytes =>
        let flen := bigEndian bytes
        if maxFrameLen < flen then (.desync, st.desynced)
        else if ethHeaderLen ≤ flen ∧ flen = len - prefixLen then (.aligned flen, st)
        else walkBoundaries read len maxBoundariesPerSkb off st
    else walkBoundaries read len maxBoundariesPerSkb off st

inductive FrameVerdict where
  | redirect (dstPort : Nat)
  | pass

def classifyFrame (dstMac srcMac : MacAddr) (ingressPort : Nat) (lookup : MacAddr → Option Nat) : FrameVerdict :=
  if isMulticast dstMac then .pass
  else if lookup srcMac = some ingressPort then
    match lookup dstMac with
    | some port => if port ≠ ingressPort then .redirect port else .pass
    | none => .pass
  else .pass

@[simp] theorem isDesynced_desynced (st : FrameState) : st.desynced.isDesynced = true := by
  have sticky : ∀ bits : BitVec 8, (bits ||| 1#8) &&& 1#8 = 1#8 := by decide
  have kept : (st.flags ||| 1) &&& 1 = 1 := UInt8.toBitVec_inj.mp (sticky st.flags.toBitVec)
  simp [FrameState.isDesynced, FrameState.desynced, flagDesync, kept]

theorem classifyFrame_eq_redirect {dstMac srcMac : MacAddr} {ingressPort dstPort : Nat}
    {lookup : MacAddr → Option Nat}
    (redirected : classifyFrame dstMac srcMac ingressPort lookup = .redirect dstPort) :
    lookup srcMac = some ingressPort ∧ lookup dstMac = some dstPort ∧ dstPort ≠ ingressPort := by
  unfold classifyFrame at redirected
  split at redirected
  · cases redirected
  split at redirected
  · next bound =>
    split at redirected
    · next port found =>
      split at redirected
      · next different =>
        cases redirected
        exact ⟨bound, found, different⟩
      · cases redirected
    · cases redirected
  · cases redirected

/-! ### The stream-verdict program (`ebpf/fastpath-sockmap/src/main.rs`) -/

/-- Copy bytes out of a buffer; only pieces of one to four bytes are served. -/
def loadExact (skb : List UInt8) : Reader := fun off count =>
  if 1 ≤ count ∧ count ≤ 4 ∧ off + count ≤ skb.length then some (window skb off count) else none

/-- Which port a stream belongs to, and where its framing stands. -/
structure SockState where
  portId : Nat
  fs : FrameState

inductive Action where
  | pass
  | redirect (dstPort : Nat)
  deriving DecidableEq

def noPort : Nat := 2 ^ 64 - 1

def FrameVerdict.action : FrameVerdict → Action
  | .redirect dstPort => .redirect dstPort
  | .pass => .pass

def verdictGuest (cookie : Nat) (macMap : MacAddr → Option Nat) (insertOk : Bool)
    (stored : Option SockState) (skb : List UInt8) : Action × Option SockState :=
  if cookie = 0 then (.pass, stored)
  else
    let st := stored.getD { portId := noPort, fs := .initial }
    let (skbClass, fs) := stepSkb st.fs skb.length (loadExact skb)
    let st := { st with fs }
    let kept := stored.map fun _ => st
    match skbClass with
    | .aligned _ =>
      match macAt? skb prefixLen, macAt? skb (prefixLen + 6) with
      | some dstMac, some srcMac =>
        match stored with
        | some _ => ((classifyFrame dstMac srcMac st.portId macMap).action, kept)
        | none =>
          -- Self-prime: the learned source names the port of this stream.
          match macMap srcMac with
          | none => (.pass, none)
          | some port =>
            let st := { st with portId := port }
            ((classifyFrame dstMac srcMac port macMap).action, if insertOk then some st else none)
      | _, _ => (.pass, kept)
    | _ => (.pass, kept)

/-! ### The sockmap tier

The kernel maps of one segment (`src/net/fastpath/sockmap.rs`). An offloaded port has its stream in `portHash`; what
userspace sends to it goes through a datagram loopback that the kernel splices into the stream. -/

/-- Ports are numbered in order of allocation and never renumbered. -/
abbrev PortId := Nat

/-- The cookies of the sockets a port has to do with: the peer that sends on
its stream (zero when the kernel attributes nothing) and the daemon's end of
its loopback. The kernel gives no two sockets the same cookie, and none a zero. -/
structure Cookies where
  sender : PortId → Nat
  loopback : PortId → Nat
  sender_distinct : ∀ {left right}, sender left = sender right → sender left ≠ 0 → left = right
  loopback_distinct : ∀ {left right}, loopback left = loopback right → left = right
  loopback_ne_zero : ∀ id, loopback id ≠ 0

structure Engine where
  portHash : List PortId
  txHash : List PortId
  macMap : SortedMap MacAddr PortId
  sockState : SortedMap Nat SockState
  txTarget : SortedMap Nat PortId

namespace Engine

def load : Engine := { portHash := [], txHash := [], macMap := .empty, sockState := .empty, txTarget := .empty }

variable (engine : Engine)

def registerStream (id : PortId) : Engine := { engine with portHash := id :: engine.portHash }

def registerTx (id : PortId) (cookie : Nat) : Engine :=
  { engine with txTarget := engine.txTarget.insert cookie id, txHash := id :: engine.txHash }

def insertMac (mac : MacAddr) (id : PortId) : Engine :=
  { engine with macMap := engine.macMap.insert mac id }

def removeMac (mac : MacAddr) : Engine := { engine with macMap := engine.macMap.erase mac }

def unregister (id : PortId) (txCookie : Nat) (macs : List MacAddr) : Engine where
  portHash := engine.portHash.filter (· ≠ id)
  txHash := engine.txHash.filter (· ≠ id)
  macMap := macs.foldl (fun map mac => map.erase mac) engine.macMap
  sockState := engine.sockState.filter fun entry => entry.2.portId ≠ id
  txTarget := engine.txTarget.erase txCookie

def closeStream (id : PortId) : Engine :=
  { engine with portHash := engine.portHash.filter (· ≠ id) }

def guestSkb (cookies : Cookies) (id : PortId) (skb : List UInt8) (insertOk : Bool) :
    Engine × Option PortId :=
  if id ∈ engine.portHash then
    let cookie := cookies.sender id
    let (action, stored) := verdictGuest cookie engine.macMap.get? insertOk (engine.sockState.get? cookie) skb
    let sockState := match stored with
      | some st => engine.sockState.insert cookie st
      | none => engine.sockState
    ({ engine with sockState },
      match action with
      | .redirect dstPort => if dstPort ∈ engine.portHash then some dstPort else none
      | .pass => none)
  else (engine, none)

def verdictTx (cookie : Nat) : Option PortId :=
  (engine.txTarget.get? cookie).filter fun port => port ∈ engine.portHash

end Engine

inductive Registration where
  | streamRefused
  | pairRefused
  | txRefused
  | registered

structure SegmentOffload where
  engine : Engine
  ports : SortedMap PortId Nat

namespace SegmentOffload

def forSegment : SegmentOffload := { engine := .load, ports := .empty }

variable (offload : SegmentOffload)

def addPort (cookies : Cookies) (id : PortId) : Registration → SegmentOffload
  | .streamRefused => offload
  | .pairRefused => { offload with engine := offload.engine.registerStream id }
  | .txRefused => { offload with engine := (offload.engine.registerStream id).unregister id 0 [] }
  | .registered =>
    { engine := (offload.engine.registerStream id).registerTx id (cookies.loopback id)
      ports := offload.ports.insert id (cookies.loopback id) }

def relearn (mac : MacAddr) (port : PortId) (inserted : Bool) : SegmentOffload :=
  if (offload.ports.get? port).isSome then
    if inserted then { offload with engine := offload.engine.insertMac mac port } else offload
  else { offload with engine := offload.engine.removeMac mac }

def removePort (id : PortId) (purged : List MacAddr) : SegmentOffload :=
  match offload.ports.get? id with
  | none => { offload with engine := purged.foldl Engine.removeMac offload.engine }
  | some txCookie =>
    { engine := offload.engine.unregister id txCookie purged, ports := offload.ports.erase id }

end SegmentOffload

/-! ## The boundary state machine against the reference reader, and what the verdict program redirects -/

/-- The state of a stream that stands at the given position. -/
structure Describes (st : FrameState) (position : Position) : Prop where
  sized : st.prefixBuf.length = 4
  synced : st.isDesynced = false
  place :
    (st.remaining = 0 ∧ st.prefixHave < 4 ∧ position = .inPrefix (st.prefixBuf.take st.prefixHave)) ∨
    (0 < st.remaining ∧ st.prefixHave = 0 ∧ position = .inBody st.remaining)

def WholeFrame (position : Position) (skb frame : List UInt8) : Prop :=
  position = .boundary ∧ skb = encode 4 frame ∧ ethHeaderLen ≤ frame.length ∧ frame.length ≤ maxFrameLen

def LosesSync (budget : Nat) (position : Position) (skb : List UInt8) : Prop :=
  (∃ length ∈ lengthsRead 4 position skb, maxFrameLen < length) ∨ budget < prefixesTouched 4 position skb

theorem Describes.initial : Describes .initial .boundary := ⟨rfl, by decide, .inl ⟨rfl, by decide, rfl⟩⟩

theorem loadExact_inside {skb : List UInt8} {off count : Nat} (positive : 1 ≤ count) (small : count ≤ 4)
    (inside : off + count ≤ skb.length) : loadExact skb off count = some (window skb off count) := by
  simp [loadExact, positive, small, inside]

theorem overwrite_complete {buffer piece : List UInt8} {start : Nat}
    (complete : start + piece.length = buffer.length) :
    overwrite buffer start piece = buffer.take start ++ piece := by
  rw [overwrite, complete, drop_length, append_nil]

private theorem take_overwrite {buffer piece : List UInt8} {start : Nat}
    (inside : start + piece.length ≤ buffer.length) :
    (overwrite buffer start piece).take (start + piece.length) = buffer.take start ++ piece := by
  have size : (buffer.take start ++ piece).length = start + piece.length := by
    rw [length_append, length_take]
    omega
  rw [overwrite, take_left' size]

private theorem Describes.afterPrefix {st : FrameState} (sized : st.prefixBuf.length = 4)
    (synced : st.isDesynced = false) (empty : st.prefixHave = 0) (missing : Nat) :
    Describes { st with remaining := missing } (LengthPrefixed.afterPrefix missing) := by
  refine ⟨sized, synced, ?_⟩
  rcases Nat.eq_zero_or_pos missing with rfl | positive
  · exact .inl ⟨rfl, by simp [empty], by simp [empty]⟩
  · exact .inr ⟨positive, empty, afterPrefix_of_pos positive⟩

theorem walkBoundaries_spec (skb : List UInt8) (budget : Nat) {off : Nat} {st : FrameState} {seen : List UInt8}
    (described : Describes st (.inPrefix seen)) (inside : off ≤ skb.length) (spent : budget = 0 → off < skb.length) :
    (∃ after, walkBoundaries (loadExact skb) skb.length budget off st = (.passthrough, after) ∧
      Describes after (scan 4 (.inPrefix seen) (skb.drop off))) ∨
    (∃ after, walkBoundaries (loadExact skb) skb.length budget off st = (.desync, after) ∧
      after.isDesynced ∧ LosesSync budget (.inPrefix seen) (skb.drop off)) := by
  induction budget generalizing off st seen with
  | zero =>
    right
    refine ⟨_, rfl, isDesynced_desynced st, .inr ?_⟩
    have left := spent rfl
    obtain ⟨byte, rest, shape⟩ := exists_cons_of_ne_nil
      (show skb.drop off ≠ [] by simp [drop_eq_nil_iff]; omega)
    rw [shape, prefixesTouched_inPrefix]
    omega
  | succ budget ih =>
    rcases described with ⟨sized, synced, ⟨closed, have_lt, place⟩ | ⟨_, _, impossible⟩⟩
    swap
    · cases impossible
    cases place
    rw [walkBoundaries]
    split
    · next past =>
      have empty : skb.drop off = [] := drop_eq_nil_iff.mpr past
      exact .inl ⟨st, rfl, by rw [empty, scan_nil]; exact ⟨sized, synced, .inl ⟨closed, have_lt, rfl⟩⟩⟩
    rename_i more
    have start_eq : st.prefixHave % 4 = st.prefixHave := Nat.mod_eq_of_lt have_lt
    have seen_length : (st.prefixBuf.take st.prefixHave).length = st.prefixHave := by
      rw [length_take]
      omega
    simp only [start_eq, prefixLen]
    by_cases short : skb.length - off < 4 - st.prefixHave
    · -- The buffer ends inside the prefix.
      have take_eq : min (4 - st.prefixHave) (skb.length - off) = skb.length - off := by omega
      have piece_eq : window skb off (skb.length - off) = skb.drop off := by
        rw [window, take_of_length_le (by simp)]
      have piece_length : (skb.drop off).length = skb.length - off := length_drop
      rw [take_eq, loadExact_inside (by omega) (by omega) (by omega), piece_eq]
      simp only [if_pos (show st.prefixHave + (skb.length - off) < 4 by omega)]
      refine .inl ⟨_, rfl, ?_, synced, .inl ⟨closed, by simp only; omega, ?_⟩⟩
      · rw [length_overwrite (by omega), sized]
      · rw [scan_inPrefix_short _ _ (by omega), ← piece_length, take_overwrite (by omega)]
    · -- The prefix completes; `flen` is the length of this frame.
      have take_eq : min (4 - st.prefixHave) (skb.length - off) = 4 - st.prefixHave := by omega
      have piece_length : (window skb off (4 - st.prefixHave)).length = 4 - st.prefixHave := length_window (by omega)
      have filled : overwrite st.prefixBuf st.prefixHave (window skb off (4 - st.prefixHave)) =
          st.prefixBuf.take st.prefixHave ++ window skb off (4 - st.prefixHave) :=
        overwrite_complete (by omega)
      have filled_length : (st.prefixBuf.take st.prefixHave ++ window skb off (4 - st.prefixHave)).length = 4 := by
        rw [length_append]
        omega
      have split_piece := drop_eq_window_append skb off (4 - st.prefixHave)
      rw [take_eq, loadExact_inside (by omega) (by omega) (by omega)]
      simp only [filled, if_neg (show ¬st.prefixHave + (4 - st.prefixHave) < 4 by omega)]
      generalize piece_def : window skb off (4 - st.prefixHave) = piece at *
      generalize seen_def : st.prefixBuf.take st.prefixHave = seen at *
      have complete : seen.length + piece.length = 4 := by omega
      have throughPrefix := scan_inPrefix_complete seen piece (by omega) complete
      split
      · next tooLong =>
        refine .inr ⟨_, rfl, isDesynced_desynced _, .inl ⟨_, ?_, tooLong⟩⟩
        rw [split_piece, lengthsRead_append, lengthsRead_inPrefix_complete seen piece (by omega) complete]
        simp
      split
      · next within =>
        refine .inl ⟨_, rfl, ?_⟩
        have rest_length : (skb.drop (off + (4 - st.prefixHave))).length =
            skb.length - (off + (4 - st.prefixHave)) := length_drop
        rw [split_piece, scan_append, throughPrefix, scan_afterPrefix _ _ (by omega), rest_length]
        exact @Describes.afterPrefix { st with prefixBuf := seen ++ piece, prefixHave := 0 }
          filled_length synced rfl _
      · next beyond =>
        -- A whole frame lies inside the buffer; go on behind it.
        generalize flen_def : bigEndian (seen ++ piece) = flen at *
        have body_length : (window skb (off + (4 - st.prefixHave)) flen).length = flen := length_window (by omega)
        have split_body := drop_eq_window_append skb (off + (4 - st.prefixHave)) flen
        obtain ⟨scanned, lengths, touched⟩ := frame_tail
          (skb.drop (off + (4 - st.prefixHave) + flen)) (by omega) complete
          (body_length.trans flen_def.symm)
        rw [← split_body, ← split_piece] at scanned lengths touched
        have next : Describes { st with prefixBuf := seen ++ piece, prefixHave := 0 } .boundary :=
          ⟨filled_length, synced, .inl ⟨closed, by simp, by simp⟩⟩
        have result := @ih (off + (4 - st.prefixHave) + flen) _ _ next (by omega) (by omega)
        rw [scanned]
        rcases result with ⟨after, walked, held⟩ | ⟨after, walked, lost, reason⟩
        · exact .inl ⟨after, walked, held⟩
        refine .inr ⟨after, walked, lost, ?_⟩
        rcases reason with ⟨length, read, tooLong⟩ | many
        · exact .inl ⟨length, by rw [lengths]; exact mem_cons_of_mem _ read, tooLong⟩
        · exact .inr (by rw [touched, Nat.add_comm 1]; exact Nat.succ_lt_succ many)

theorem stepSkb_wholeFrame {st : FrameState} {skb frame : List UInt8}
    (described : Describes st .boundary) (whole : WholeFrame .boundary skb frame) :
    stepSkb st skb.length (loadExact skb) = (.aligned frame.length, st) := by
  obtain ⟨_, rfl, large, small⟩ := whole
  rcases described with ⟨sized, synced, ⟨closed, have_lt, place⟩ | ⟨_, _, impossible⟩⟩
  swap
  · cases impossible
  have have_zero : st.prefixHave = 0 := by
    have empty := (Position.inPrefix.inj place).symm
    rw [take_eq_nil_iff] at empty
    rcases empty with zero | empty
    · exact zero
    · simp [empty] at sized
  have head : loadExact (encode 4 frame) 0 4 = some (toBigEndian 4 frame.length) := by
    rw [loadExact_inside (by omega) (by omega) (by simp), window_zero, encode, take_left' (length_toBigEndian ..)]
  have fits : frame.length < 256 ^ 4 := by
    simp only [maxFrameLen] at small
    omega
  have shape : { st with remaining := 0, prefixHave := 0 } = st := by
    cases st
    simp_all
  simp only [ethHeaderLen] at large
  rw [stepSkb, if_neg (by simp [synced]), if_neg (by omega)]
  simp only [closed, have_zero, head, bigEndian_toBigEndian fits, length_encode, prefixLen]
  rw [if_pos ⟨trivial, trivial, by omega⟩, if_neg (by omega), if_pos ⟨large, by omega⟩, shape]

theorem stepSkb_spec {st : FrameState} {position : Position} (described : Describes st position) (skb : List UInt8) :
    (∃ frame, stepSkb st skb.length (loadExact skb) = (.aligned frame.length, st) ∧ WholeFrame position skb frame) ∨
    (∃ after, stepSkb st skb.length (loadExact skb) = (.passthrough, after) ∧ Describes after (scan 4 position skb)) ∨
    (∃ after, stepSkb st skb.length (loadExact skb) = (.desync, after) ∧
      after.isDesynced ∧ LosesSync maxBoundariesPerSkb position skb) := by
  rcases described with ⟨sized, synced, ⟨closed, have_lt, rfl⟩ | ⟨opened, have_zero, rfl⟩⟩
  · -- No frame is open: the fast path may apply.
    have shape : { st with remaining := 0 } = st := by rw [← closed]
    have walk := walkBoundaries_spec skb maxBoundariesPerSkb
      ⟨sized, synced, .inl ⟨closed, have_lt, rfl⟩⟩ (Nat.zero_le _)
      (fun none => absurd none (by decide))
    rw [drop_zero] at walk
    rw [stepSkb, if_neg (by simp [synced]), if_neg (by omega)]
    simp only [closed, shape]
    split
    · next fast =>
      simp only [prefixLen] at fast
      have cut : skb.take 4 ++ skb.drop 4 = skb := take_append_drop ..
      have head_length : (skb.take 4).length = 4 := by
        rw [length_take]
        omega
      rw [loadExact_inside (by omega) (by omega) (by omega), window_zero]
      simp only
      split
      · next tooLong =>
        refine .inr (.inr ⟨_, rfl, isDesynced_desynced st, .inl ⟨_, ?_, tooLong⟩⟩)
        rw [fast.2.1, take_zero, ← cut, lengthsRead_append,
          lengthsRead_inPrefix_complete [] _ (by simp) (by simpa using head_length), cut]
        simp
      · next within =>
        split
        · next exact' =>
          refine .inl ⟨skb.drop 4, ?_, ?_, ?_, ?_, ?_⟩
          · rw [exact'.2, length_drop, prefixLen]
          · rw [fast.2.1, take_zero]
          · rw [encode, length_drop, ← prefixLen, ← exact'.2, prefixLen]
            nth_rewrite 1 [← cut]
            congr 1
            have back := toBigEndian_bigEndian (skb.take 4)
            rw [head_length] at back
            exact back.symm
          · rw [length_drop, ← prefixLen, ← exact'.2]
            exact exact'.1
          · rw [length_drop, ← prefixLen, ← exact'.2]
            omega
        · exact .inr walk
    · exact .inr walk
  · -- A frame is open: its remainder comes first.
    rw [stepSkb, if_neg (by simp [synced])]
    split
    · next within =>
      refine .inr (.inl ⟨_, rfl, ?_⟩)
      rw [← afterPrefix_of_pos opened, scan_afterPrefix _ _ within.2]
      exact Describes.afterPrefix sized synced have_zero _
    · next beyond =>
      have long : st.remaining ≤ skb.length := by omega
      have body_length : (window skb 0 st.remaining).length = st.remaining := length_window (by omega)
      obtain ⟨scanned, lengths, touched⟩ := @body_tail 4 st.remaining _ (skb.drop st.remaining)
        opened body_length
      have split_body := drop_eq_window_append skb 0 st.remaining
      rw [drop_zero, Nat.zero_add] at split_body
      rw [← split_body] at scanned lengths touched
      have closedState : Describes { st with remaining := 0 } .boundary :=
        ⟨sized, synced, .inl ⟨rfl, by simp [have_zero], by simp [have_zero]⟩⟩
      have walk := walkBoundaries_spec skb maxBoundariesPerSkb closedState long
        (fun none => absurd none (by decide))
      simp only
      rw [if_neg (by omega), scanned]
      refine .inr (walk.imp id ?_)
      rintro ⟨after, walked, lost, reason⟩
      refine ⟨after, walked, lost, ?_⟩
      unfold LosesSync at reason ⊢
      rw [lengths, touched]
      exact reason

def feed (st : FrameState) (skbs : List (List UInt8)) : FrameState :=
  skbs.foldl (fun st skb => (stepSkb st skb.length (loadExact skb)).2) st

theorem feed_cons (st : FrameState) (skb : List UInt8) (skbs : List (List UInt8)) :
    feed st (skb :: skbs) = feed (stepSkb st skb.length (loadExact skb)).2 skbs := rfl

theorem feed_concat (st : FrameState) (skbs : List (List UInt8)) (skb : List UInt8) :
    feed st (skbs ++ [skb]) = (stepSkb (feed st skbs) skb.length (loadExact skb)).2 := by
  simp [feed]

theorem stepSkb_desynced {st : FrameState} (lost : st.isDesynced) (len : Nat) (read : Reader) :
    stepSkb st len read = (.passthrough, st) := by
  rw [stepSkb, if_pos lost]

theorem feed_desynced {st : FrameState} (lost : st.isDesynced) (skbs : List (List UInt8)) : feed st skbs = st := by
  induction skbs with
  | nil => rfl
  | cons skb skbs ih => rw [feed_cons, stepSkb_desynced lost, ih]

theorem feed_describes {st : FrameState} {position : Position} (described : Describes st position)
    (skbs : List (List UInt8)) :
    (feed st skbs).isDesynced ∨ Describes (feed st skbs) (scan 4 position skbs.flatten) := by
  induction skbs generalizing st position with
  | nil => exact .inr described
  | cons skb skbs ih =>
    rw [feed_cons, flatten_cons, scan_append]
    rcases stepSkb_spec described skb with
      ⟨frame, stepped, rfl, rfl, _, small⟩ | ⟨after, stepped, held⟩ | ⟨after, stepped, lost, _⟩
    · rw [stepped, scan_encode (by decide) (by simp only [maxFrameLen] at small; omega)]
      exact ih described
    · rw [stepped]
      exact ih held
    · rw [stepped]
      exact .inl (by rw [feed_desynced lost]; exact lost)

theorem exists_wholeFrame_iff {frames before after : List (List UInt8)} {skb : List UInt8} {length : Nat}
    (fits : ∀ frame ∈ frames, frame.length < 256 ^ 4) (cut : (before ++ skb :: after).flatten = stream 4 frames) :
    (∃ frame, frame.length = length ∧ WholeFrame (position 4 frames before.flatten.length) skb frame) ↔
      ∃ done frame rest, frames = done ++ frame :: rest ∧ before.flatten = stream 4 done ∧
        skb = encode 4 frame ∧ frame.length = length ∧ ethHeaderLen ≤ length ∧ length ≤ maxFrameLen := by
  rw [flatten_append, flatten_cons] at cut
  constructor
  · rintro ⟨frame, rfl, boundary, rfl, large, small⟩
    have inside : before.flatten.length ≤ (stream 4 frames).length := by
      rw [← cut, length_append]
      omega
    obtain ⟨done, rest, rfl, length⟩ := split_of_position_boundary inside boundary
    rw [stream_append] at cut
    obtain ⟨front, back⟩ := append_inj cut length.symm
    cases rest with
    | nil =>
      have empty := congrArg List.length back
      simp only [stream_nil, length_append, length_encode, length_nil] at empty
      omega
    | cons next rest =>
      rw [stream_cons] at back
      have frameFits : frame.length < 256 ^ 4 := by
        simp only [maxFrameLen] at small
        omega
      obtain ⟨rfl, _⟩ := encode_append_injective frameFits (fits next (by simp)) back
      exact ⟨done, frame, rest, rfl, front, rfl, rfl, large, small⟩
  rintro ⟨done, frame, rest, rfl, front, rfl, rfl, large, small⟩
  refine ⟨frame, rfl, ?_, rfl, large, small⟩
  rw [front]
  exact position_stream_length 4 done _ (by decide)

/-- Feeding any partition of a framed stream, buffer by buffer: before and
after each buffer the state gives the true position unless sync was lost; a
buffer is reported aligned exactly when it is the next whole frame, of
accepted size; and sync is lost only on a length the userspace reader refuses
too, or on a buffer with more prefixes than the walk visits. -/
theorem stepSkb_tracks_stream {frames before after : List (List UInt8)} {skb : List UInt8}
    (fits : ∀ frame ∈ frames, frame.length < 2 ^ 32) (cut : (before ++ skb :: after).flatten = stream 4 frames) :
    ((feed .initial before).isDesynced ∨ Describes (feed .initial before) (position 4 frames before.flatten.length)) ∧
    ((feed .initial (before ++ [skb])).isDesynced ∨
      Describes (feed .initial (before ++ [skb])) (position 4 frames (before ++ [skb]).flatten.length)) ∧
    (∀ length,
      (stepSkb (feed .initial before) skb.length (loadExact skb)).1 = .aligned length ↔
        (feed .initial before).isDesynced = false ∧
        ∃ done frame rest, frames = done ++ frame :: rest ∧ before.flatten = stream 4 done ∧
          skb = encode 4 frame ∧ frame.length = length ∧ ethHeaderLen ≤ length ∧ length ≤ maxFrameLen) ∧
    ((feed .initial before).isDesynced → (feed .initial (before ++ [skb])).isDesynced) ∧
    ((feed .initial before).isDesynced = false → (feed .initial (before ++ [skb])).isDesynced →
      (∃ done rest message, frames = done ++ rest ∧
        Net.readBody (stream 4 rest) Net.maxFrameLen = .error { kind := .invalidData, message }) ∨
      maxBoundariesPerSkb < prefixesTouched 4 (position 4 frames before.flatten.length) skb) := by
  have fits' : ∀ frame ∈ frames, frame.length < 256 ^ 4 := fun frame member => by
    have small := fits frame member
    omega
  have whole := cut
  rw [flatten_append, flatten_cons] at cut
  have reach : ∀ {skbs : List (List UInt8)} {tail : List UInt8}, skbs.flatten ++ tail = stream 4 frames →
      (feed .initial skbs).isDesynced ∨ Describes (feed .initial skbs) (position 4 frames skbs.flatten.length) := by
    intro skbs tail shape
    rw [← scan_stream_take (by decide) fits', ← shape, take_left' rfl]
    exact feed_describes .initial skbs
  refine ⟨reach cut, @reach (before ++ [skb]) after.flatten (by simpa using cut), ?_, ?_, ?_⟩
  · intro length
    rw [← exists_wholeFrame_iff fits' whole]
    rcases reach cut with lost | described
    · simp [stepSkb_desynced lost, lost]
    constructor
    · intro aligned
      rcases stepSkb_spec described skb with
        ⟨frame, stepped, found⟩ | ⟨_, stepped, _⟩ | ⟨_, stepped, _, _⟩
      · rw [stepped] at aligned
        cases aligned
        exact ⟨described.synced, frame, rfl, found⟩
      · rw [stepped] at aligned
        cases aligned
      · rw [stepped] at aligned
        cases aligned
    · rintro ⟨_, frame, rfl, found⟩
      rw [found.1] at described found
      rw [stepSkb_wholeFrame described found]
  · intro lost
    rw [feed_concat, stepSkb_desynced lost]
    exact lost
  · intro synced lost
    rcases reach cut with already | described
    · rw [already] at synced
      cases synced
    rw [feed_concat] at lost
    rcases stepSkb_spec described skb with ⟨frame, stepped, _⟩ | ⟨after', stepped, held⟩ | ⟨_, _, _, reason⟩
    · rw [stepped, synced] at lost
      cases lost
    · rw [stepped, held.synced] at lost
      cases lost
    rcases reason with ⟨length, read, tooLong⟩ | many
    · left
      have inStream : length ∈ lengthsRead 4 .boundary (stream 4 frames) := by
        rw [← cut, lengthsRead_append, lengthsRead_append]
        have here : scan 4 .boundary before.flatten = position 4 frames before.flatten.length := by
          rw [← scan_stream_take (by decide) fits', ← cut, take_left' rfl]
        rw [here]
        exact mem_append_right _ (mem_append_left _ read)
      obtain ⟨frame, member, rfl⟩ := mem_lengthsRead_stream (by decide) fits' inStream
      obtain ⟨done, rest, rfl⟩ := append_of_mem member
      obtain ⟨message, refused⟩ := (Net.readBody_refuses_iff (fits' frame member)
        (stream 4 rest)).mpr tooLong
      exact ⟨done, frame :: rest, message, rfl, by rw [stream_cons]; exact refused⟩
    · exact .inr many

/-- A single frame of the smallest redirectable size is reported aligned. -/
theorem stepSkb_tracks_smallest_frame :
    (stepSkb .initial 18 (loadExact (encode 4 (List.replicate 14 0)))).1 = .aligned 14 := by
  have tracked := @stepSkb_tracks_stream [List.replicate 14 0] [] []
    (encode 4 (List.replicate 14 0)) (by decide) (by decide)
  exact (tracked.2.2.1 14).mpr ⟨by decide, [], _, [], rfl, rfl, rfl, rfl, by decide, by decide⟩

/-! ### What the verdict program may redirect -/

structure Delivery where
  macMap : MacAddr → Option Nat
  insertOk : Bool
  skb : List UInt8

def Delivery.verdict (delivery : Delivery) (cookie : Nat) (stored : Option SockState) : Action × Option SockState :=
  verdictGuest cookie delivery.macMap delivery.insertOk stored delivery.skb

def storedAfter (cookie : Nat) (stored : Option SockState) (deliveries : List Delivery) : Option SockState :=
  deliveries.foldl (fun stored delivery => (delivery.verdict cookie stored).2) stored

/-- The bytes of a delivery that the userspace reader gets to see. -/
def Action.passed (action : Action) (skb : List UInt8) : List UInt8 :=
  match action with
  | .pass => skb
  | .redirect _ => []

def passedBytes (cookie : Nat) : Option SockState → List Delivery → List UInt8
  | _, [] => []
  | stored, delivery :: deliveries =>
    (delivery.verdict cookie stored).1.passed delivery.skb ++
      passedBytes cookie (delivery.verdict cookie stored).2 deliveries

def carried (deliveries : List Delivery) : List UInt8 := (deliveries.map Delivery.skb).flatten

/-- If a stream has no state, a buffer that looks like one whole frame from a
learned source stands at a frame boundary. -/
def PrimesAtBoundary (stored : Option SockState) (delivery : Delivery) (position : Position) : Prop :=
  stored = none → ∀ length srcMac,
    (stepSkb .initial delivery.skb.length (loadExact delivery.skb)).1 = .aligned length →
    macAt? delivery.skb (prefixLen + 6) = some srcMac → delivery.macMap srcMac ≠ none →
    position = .boundary

structure Tracked (cookie : Nat) (stored : Option SockState) (position : Position) : Prop where
  attributed : cookie = 0 → stored = none
  followed : ∀ st, stored = some st → st.fs.isDesynced ∨ Describes st.fs position

theorem Tracked.none (cookie : Nat) (position : Position) : Tracked cookie none position :=
  ⟨fun _ => rfl, fun _ absent => by cases absent⟩

theorem scan_wholeFrame {position : Position} {skb frame : List UInt8}
    (whole : WholeFrame position skb frame) : scan 4 position skb = .boundary := by
  obtain ⟨rfl, rfl, _, small⟩ := whole
  exact scan_encode (by decide) (by simp only [maxFrameLen] at small; omega)

theorem verdictGuest_stored {cookie : Nat} {st : SockState} {position : Position}
    (delivery : Delivery) (attributed : cookie ≠ 0) (followed : st.fs.isDesynced ∨ Describes st.fs position) :
    Tracked cookie (delivery.verdict cookie (some st)).2 (scan 4 position delivery.skb) ∧
      ∀ port, (delivery.verdict cookie (some st)).1 = .redirect port →
        ∃ frame, WholeFrame position delivery.skb frame := by
  have keep : ∀ {fs : FrameState} {place : Position}, fs.isDesynced ∨ Describes fs place →
      Tracked cookie (some { st with fs }) place := by
    intro fs place held
    refine ⟨fun zero => absurd zero attributed, fun other same => ?_⟩
    cases same
    exact held
  unfold Delivery.verdict verdictGuest
  rw [if_neg attributed]
  simp only [Option.getD_some, Option.map_some]
  rcases followed with lost | described
  · rw [stepSkb_desynced lost]
    exact ⟨keep (.inl lost), fun port redirected => by cases redirected⟩
  rcases stepSkb_spec described delivery.skb with
    ⟨frame, stepped, whole⟩ | ⟨after, stepped, held⟩ | ⟨after, stepped, lost, _⟩
  · have still : Tracked cookie (some { st with fs := st.fs }) (scan 4 position delivery.skb) := by
      rw [scan_wholeFrame whole, ← whole.1]
      exact keep (.inr described)
    rw [stepped]
    simp only
    split
    · exact ⟨still, fun _ _ => ⟨frame, whole⟩⟩
    · exact ⟨still, fun _ _ => ⟨frame, whole⟩⟩
  · rw [stepped]
    exact ⟨keep (.inr held), fun port redirected => by cases redirected⟩
  · rw [stepped]
    exact ⟨keep (.inl lost), fun port redirected => by cases redirected⟩

theorem verdictGuest_unstored {cookie : Nat} {position : Position} (delivery : Delivery)
    (attributed : cookie ≠ 0) (primes : PrimesAtBoundary none delivery position) :
    Tracked cookie (delivery.verdict cookie none).2 (scan 4 position delivery.skb) ∧
      ∀ port, (delivery.verdict cookie none).1 = .redirect port →
        ∃ frame, WholeFrame position delivery.skb frame := by
  have start := primes rfl
  unfold Delivery.verdict verdictGuest
  rw [if_neg attributed]
  simp only [Option.getD_none, Option.map_none]
  rcases stepSkb_spec .initial delivery.skb with
    ⟨frame, stepped, whole⟩ | ⟨after, stepped, _⟩ | ⟨after, stepped, _, _⟩
  · rw [stepped] at start ⊢
    simp only
    split
    · next dstMac srcMac _ source =>
      split
      · exact ⟨.none .., fun port redirected => by cases redirected⟩
      rename_i port learned
      have boundary := start frame.length srcMac rfl source (by rw [learned]; simp)
      subst boundary
      refine ⟨?_, fun _ _ => ⟨frame, whole⟩⟩
      rw [scan_wholeFrame whole]
      split
      · exact ⟨fun zero => absurd zero attributed, fun st same => by cases same; exact .inr .initial⟩
      · exact .none ..
    · exact ⟨.none .., fun port redirected => by cases redirected⟩
  · rw [stepped]
    exact ⟨.none .., fun port redirected => by cases redirected⟩
  · rw [stepped]
    exact ⟨.none .., fun port redirected => by cases redirected⟩

theorem verdict_step {cookie : Nat} {stored : Option SockState} {position : Position}
    (delivery : Delivery) (tracked : Tracked cookie stored position)
    (primes : PrimesAtBoundary stored delivery position) :
    Tracked cookie (delivery.verdict cookie stored).2 (scan 4 position delivery.skb) ∧
      ∀ port, (delivery.verdict cookie stored).1 = .redirect port →
        ∃ frame, WholeFrame position delivery.skb frame := by
  by_cases attributed : cookie = 0
  · have absent := tracked.attributed attributed
    subst absent
    simp only [Delivery.verdict, verdictGuest, if_pos attributed]
    exact ⟨.none .., fun port redirected => by cases redirected⟩
  cases stored with
  | none => exact verdictGuest_unstored delivery attributed primes
  | some st => exact verdictGuest_stored delivery attributed (tracked.followed st rfl)

structure Followed (cookie : Nat) (frames : List (List UInt8)) (consumed : List UInt8)
    (stored : Option SockState) (passed : List UInt8) : Prop where
  tracked : Tracked cookie stored (position 4 frames consumed.length)
  framed : ∃ kept, kept.Sublist (framesBegun 4 frames consumed.length) ∧
    passed ++ (stream 4 (framesBegun 4 frames consumed.length)).drop consumed.length = stream 4 kept

theorem Followed.start (cookie : Nat) (frames : List (List UInt8)) : Followed cookie frames [] none [] := by
  refine ⟨.none .., [], by simp, ?_⟩
  cases frames <;> simp [framesBegun]

section

variable {cookie : Nat} {frames : List (List UInt8)} {consumed passed : List UInt8}
  {stored : Option SockState}

theorem Followed.step (fits : ∀ frame ∈ frames, frame.length < 256 ^ 4) {delivery : Delivery}
    {rest : List UInt8} (followed : Followed cookie frames consumed stored passed)
    (cut : consumed ++ (delivery.skb ++ rest) = stream 4 frames)
    (primes : PrimesAtBoundary stored delivery (position 4 frames consumed.length)) :
    Followed cookie frames (consumed ++ delivery.skb) (delivery.verdict cookie stored).2
      (passed ++ (delivery.verdict cookie stored).1.passed delivery.skb) := by
  obtain ⟨tracked, kept, sub, framed⟩ := followed
  obtain ⟨tracked', only⟩ := verdict_step delivery tracked primes
  have here : scan 4 (position 4 frames consumed.length) delivery.skb =
      position 4 frames (consumed ++ delivery.skb).length := by
    rw [← scan_stream_take (by decide) fits, ← scan_stream_take (by decide) fits, ← cut,
      take_left' rfl, ← append_assoc, take_left' rfl, scan_append]
  rw [here] at tracked'
  refine ⟨tracked', ?_⟩
  have inside : consumed.length ≤ (stream 4 frames).length := by simp [← cut]
  have insideNext : (consumed ++ delivery.skb).length ≤ (stream 4 frames).length := by simp [← cut]
  cases verdict : (delivery.verdict cookie stored).1 with
  | pass =>
    obtain ⟨between, grown, bytes⟩ := piece_append_missing cut
    refine ⟨kept ++ between, ?_, ?_⟩
    · rw [grown]
      exact sub.append_right between
    · rw [Action.passed, append_assoc, bytes, ← append_assoc, framed, stream_append]
  | redirect port =>
    -- A whole frame left the stream: both ends of it are boundaries.
    obtain ⟨frame, whole⟩ := only port verdict
    have next : position 4 frames (consumed ++ delivery.skb).length = .boundary := by
      rw [← here, scan_wholeFrame whole]
    have none_missing := length_stream_framesBegun (by decide) inside whole.1
    have none_missing' := length_stream_framesBegun (by decide) insideNext next
    rw [drop_of_length_le (by omega), append_nil] at framed
    obtain ⟨between, grown⟩ := framesBegun_mono 4 frames
      (show consumed.length ≤ (consumed ++ delivery.skb).length by simp)
    refine ⟨kept, ?_, ?_⟩
    · rw [← grown]
      exact sub.trans (sublist_append_left ..)
    · rw [drop_of_length_le (by omega), Action.passed, append_nil, append_nil, framed]

section

variable (deliveries : List Delivery) (delivery : Delivery)
include deliveries delivery

theorem storedAfter_concat : storedAfter cookie stored (deliveries ++ [delivery]) =
      (delivery.verdict cookie (storedAfter cookie stored deliveries)).2 := by
  simp [storedAfter]

theorem passedBytes_concat : passedBytes cookie stored (deliveries ++ [delivery]) =
      passedBytes cookie stored deliveries ++
        (delivery.verdict cookie (storedAfter cookie stored deliveries)).1.passed delivery.skb := by
  induction deliveries generalizing stored with
  | nil => simp [passedBytes, storedAfter]
  | cons first deliveries ih =>
    simp only [cons_append, passedBytes, ih, append_assoc]
    rfl

theorem carried_concat : carried (deliveries ++ [delivery]) = carried deliveries ++ delivery.skb := by
  simp [carried]

end

theorem followed_run (fits : ∀ frame ∈ frames, frame.length < 256 ^ 4) {deliveries : List Delivery}
    (cut : carried deliveries = stream 4 frames)
    (primes : ∀ before delivery after, deliveries = before ++ delivery :: after →
      PrimesAtBoundary (storedAfter cookie none before) delivery
        (position 4 frames (carried before).length))
    {before after : List Delivery} (shape : deliveries = before ++ after) :
    Followed cookie frames (carried before) (storedAfter cookie none before) (passedBytes cookie none before) := by
  induction before using List.reverseRecOn generalizing after with
  | nil => exact .start cookie frames
  | append_singleton before delivery ih =>
    rw [append_assoc, singleton_append] at shape
    rw [carried_concat, storedAfter_concat, passedBytes_concat]
    have bytes : carried before ++ (delivery.skb ++ carried after) = stream 4 frames := by
      rw [← cut, shape]
      simp [carried]
    exact (ih shape).step fits bytes (primes before delivery after shape)

end

/-- In a run in which every buffer that primes the stream stands at a frame
boundary, a redirected buffer is exactly the next whole frame of the stream,
and the bytes left for the userspace reader are the remaining whole frames. -/
theorem verdictGuest_redirects_whole_frames (cookie : Nat) {frames : List (List UInt8)}
    {deliveries : List Delivery} (fits : ∀ frame ∈ frames, frame.length < 2 ^ 32)
    (cut : carried deliveries = stream 4 frames)
    (primes : ∀ before delivery after, deliveries = before ++ delivery :: after →
      PrimesAtBoundary (storedAfter cookie none before) delivery
        (position 4 frames (carried before).length)) :
    (∀ before delivery after port, deliveries = before ++ delivery :: after →
      (delivery.verdict cookie (storedAfter cookie none before)).1 = .redirect port →
      ∃ done frame rest, frames = done ++ frame :: rest ∧ carried before = stream 4 done ∧
        delivery.skb = encode 4 frame) ∧
    ∃ kept, kept.Sublist frames ∧ passedBytes cookie none deliveries = stream 4 kept := by
  have fits' : ∀ frame ∈ frames, frame.length < 256 ^ 4 := fun frame member => by
    have small := fits frame member
    omega
  constructor
  · intro before delivery after port shape redirected
    have followed := followed_run fits' cut primes shape
    obtain ⟨frame, whole⟩ :=
      (verdict_step delivery followed.tracked (primes before delivery after shape)).2 port redirected
    have bytes : (before.map Delivery.skb ++ delivery.skb :: after.map Delivery.skb).flatten = stream 4 frames := by
      rw [← cut, shape]
      simp [carried]
    obtain ⟨done, found, rest, split, front, same, _⟩ := (exists_wholeFrame_iff fits' bytes).mp ⟨frame, rfl, whole⟩
    exact ⟨done, found, rest, split, front, same⟩
  obtain ⟨_, kept, sub, framed⟩ := followed_run fits' cut primes (append_nil deliveries).symm
  have boundary : position 4 frames (carried deliveries).length = .boundary := by
    have ended := position_stream_length 4 frames [] (by decide)
    rwa [append_nil, ← cut] at ended
  have none_missing := length_stream_framesBegun (by decide) (by rw [cut]) boundary
  rw [drop_of_length_le (by omega), append_nil] at framed
  exact ⟨kept, sub.trans (framesBegun_isPrefix ..).sublist, framed⟩

def guestMac (index : UInt8) : MacAddr := ⟨[0x52, 0x54, 0, 0, 0, index], rfl⟩

def twoGuests (mac : MacAddr) : Option Nat :=
  if mac = guestMac 1 then some 1 else if mac = guestMac 2 then some 2 else none

def guestFrame : List UInt8 := (guestMac 2).octets ++ (guestMac 1).octets ++ [0x08, 0x00]

/-- A stream that consists of that one frame is primed and redirected by it. -/
theorem verdictGuest_redirects_guestFrame :
    (∃ done frame rest, [guestFrame] = done ++ frame :: rest ∧ carried [] = stream 4 done ∧
      encode 4 guestFrame = encode 4 frame) ∧
    ∃ kept, kept.Sublist [guestFrame] ∧
      passedBytes 7 none [⟨twoGuests, true, encode 4 guestFrame⟩] = stream 4 kept := by
  have whole := @verdictGuest_redirects_whole_frames 7 [guestFrame]
    [⟨twoGuests, true, encode 4 guestFrame⟩] (by decide) (by decide)
    (fun before delivery after shape _ _ _ _ _ _ => by
      cases before with
      | nil => rfl
      | cons first before => simp at shape)
  exact ⟨whole.1 [] _ [] 2 rfl (by decide), whole.2⟩

/-- A payload whose tail imitates a frame. When the sender's buffer ends just
before the imitation, the imitation primes the stream and is redirected out
of the middle of its frame. -/
theorem verdictGuest_redirects_payload : ¬∀ (cookie : Nat) (frames : List (List UInt8)) (deliveries : List Delivery),
      (∀ frame ∈ frames, frame.length < 2 ^ 32) → carried deliveries = stream 4 frames →
      ∀ before delivery after port, deliveries = before ++ delivery :: after →
        (delivery.verdict cookie (storedAfter cookie none before)).1 = .redirect port →
        ∃ done frame rest, frames = done ++ frame :: rest ∧ carried before = stream 4 done ∧
          delivery.skb = encode 4 frame := by
  intro claim
  let front : Delivery := ⟨twoGuests, true, [0, 0, 0, 19, 0xab]⟩
  let imitation : Delivery := ⟨twoGuests, true, encode 4 guestFrame⟩
  obtain ⟨done, frame, rest, split, bytes, _⟩ :=
    claim 7 [0xab :: encode 4 guestFrame] [front, imitation] (by decide) (by decide) [front] imitation [] 2
      rfl (by decide)
  cases done with
  | nil =>
    rw [stream_nil] at bytes
    exact absurd bytes (by decide)
  | cons first done => simp at split

end Vmlab.Fastpath
