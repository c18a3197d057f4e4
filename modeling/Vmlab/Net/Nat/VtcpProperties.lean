import Vmlab.Net.Nat.Vtcp

/-!
# The virtual TCP endpoint reassembles the guest's stream

Positions in the guest's data are plain numbers; the sequence numbers of the
flow are their serial numbers from the byte behind the SYN.
-/

namespace Vmlab.Net.Nat

open Library
open SortedMap (total_empty total_erase)
open List

variable {seq : BitVec 32} {bytes : List UInt8} {start : Nat} {seg : Segment}

section

variable (data : List UInt8)

structure IsSlice (base seq : BitVec 32) (bytes : List UInt8) (start : Nat) : Prop where
  numbered : seq = serial base start
  inside : start + bytes.length ≤ data.length
  same : bytes = window data start bytes.length

structure Held (base : BitVec 32) (low : Nat) (flow : Flow) : Prop where
  slices : ∀ entry ∈ flow.ooo, ∃ start, IsSlice data base entry.1 entry.2 start ∧ entry.2 ≠ [] ∧
    low < start ∧ start < low + 2 ^ 31
  counted : flow.oooBytes = flow.ooo.total List.length
  capped : flow.oooBytes ≤ oooMaxBytes

structure Receiving (base : BitVec 32) (state : Established) (low pos : Nat) : Prop where
  alive : state.alive = true
  writable : state.wrOpen = true
  unfinished : state.flow.guestFinRcvd = false
  unended : state.peer.ended = false
  next : state.flow.rcvNxt = serial base pos
  passed : state.peer.passed = data.take pos
  inside : pos ≤ data.length
  held : Held data base low state.flow

structure Finished (base : BitVec 32) (state : Established) : Prop where
  closed : state.wrOpen = false
  finished : state.flow.guestFinRcvd = true
  next : state.flow.rcvNxt = serial base (data.length + 1)
  passed : state.peer.passed = data
  drained : state.flow.ooo = .empty
  counted : state.flow.oooBytes = 0

structure Stopped (state : Established) : Prop where
  dead : state.alive = false
  passed : state.peer.passed <+: data
  ended : state.peer.ended = true → state.peer.passed = data
  counted : state.flow.oooBytes = state.flow.ooo.total List.length
  capped : state.flow.oooBytes ≤ oooMaxBytes

end

inductive Reassembled (data : List UInt8) (base : BitVec 32) (state : Established) : Prop where
  | receiving (pos : Nat) (receiving : Receiving data base state pos pos)
  | finished (finished : Finished data base state)
  | stopped (stopped : Stopped data state)

section

variable {data : List UInt8} {base : BitVec 32} {low : Nat} {flow : Flow}

section

variable (held : Held data base low flow)
include held

theorem Held.of_same {flow' : Flow} (ooo : flow'.ooo = flow.ooo)
    (bytes : flow'.oooBytes = flow.oooBytes) : Held data base low flow' := by
  constructor
  · intro entry member
    rw [ooo] at member
    exact held.slices entry member
  · rw [ooo, bytes, held.counted]
  · rw [bytes]
    exact held.capped

theorem Held.shrink {flow' : Flow} (fewer : ∀ entry ∈ flow'.ooo, entry ∈ flow.ooo)
    (counted : flow'.oooBytes = flow'.ooo.total List.length)
    (less : flow'.oooBytes ≤ flow.oooBytes) : Held data base low flow' where
  slices entry member := held.slices entry (fewer entry member)
  counted := counted
  capped := less.trans held.capped

theorem Held.dropStale : Held data base low (Established.dropStale flow) := by
  have split := SortedMap.total_filter_add List.length
    (fun entry => seqLe (entry.1 + BitVec.ofNat 32 entry.2.length) flow.rcvNxt) flow.ooo
  refine held.shrink ?_ ?_ (Nat.sub_le ..)
  · intro entry member
    exact (SortedMap.mem_filter.mp member).1
  · simp only [Established.dropStale, held.counted]
    omega

theorem Held.erase (member : (seq, bytes) ∈ flow.ooo) : Held data base low
      { flow with ooo := flow.ooo.erase seq, oooBytes := flow.oooBytes - bytes.length } := by
  have total := total_erase List.length member
  refine held.shrink ?_ ?_ (Nat.sub_le ..)
  · intro entry inside
    exact (SortedMap.mem_erase.mp inside).1
  · simp only [held.counted]
    omega

end

theorem trimOoo_held {fuel : Nat} {flow : Flow}
    (slices : ∀ entry ∈ flow.ooo, ∃ start, IsSlice data base entry.1 entry.2 start ∧ entry.2 ≠ [] ∧
      low < start ∧ start < low + 2 ^ 31)
    (counted : flow.oooBytes = flow.ooo.total List.length) (enough : flow.ooo.size ≤ fuel) :
    Held data base low (flow.trimOoo fuel) := by
  induction fuel generalizing flow with
  | zero =>
    have empty : flow.ooo.entries = [] := eq_nil_of_length_eq_zero (Nat.le_zero.mp enough)
    refine ⟨slices, counted, ?_⟩
    simp [Flow.trimOoo, counted, SortedMap.total, empty]
  | succ fuel ih =>
    rw [Flow.trimOoo]
    split
    · cases found : flow.ooo.first? with
      | none =>
        rw [SortedMap.first?_eq_none found, total_empty] at counted
        omega
      | some entry =>
        obtain ⟨oldest, dropped⟩ := entry
        have member := SortedMap.first?_mem found
        have total := total_erase List.length member
        refine ih ?_ ?_ ?_
        · intro entry inside
          exact slices entry (SortedMap.mem_erase.mp inside).1
        · simp only [counted]
          omega
        · have smaller := SortedMap.size_erase_lt member
          exact Nat.le_of_lt_succ (smaller.trans_le enough)
    · exact ⟨slices, counted, by omega⟩

theorem trimOoo_receive (fuel : Nat) (flow : Flow) :
    (flow.trimOoo fuel).rcvNxt = flow.rcvNxt ∧ (flow.trimOoo fuel).guestFinRcvd = flow.guestFinRcvd := by
  induction fuel generalizing flow with
  | zero => exact ⟨rfl, rfl⟩
  | succ fuel ih =>
    rw [Flow.trimOoo]
    split
    · split
      · exact ⟨rfl, rfl⟩
      · exact ih _
    · exact ⟨rfl, rfl⟩

theorem queueOoo_receive (flow : Flow) (seq : BitVec 32) (payload : List UInt8) :
    (flow.queueOoo seq payload).rcvNxt = flow.rcvNxt ∧
      (flow.queueOoo seq payload).guestFinRcvd = flow.guestFinRcvd := by
  rw [Flow.queueOoo]
  split
  · exact ⟨rfl, rfl⟩
  split
  · split
    · exact ⟨rfl, rfl⟩
    · exact trimOoo_receive ..
  · exact trimOoo_receive ..

theorem Held.queueOoo (held : Held data base low flow)
    (slice : IsSlice data base seq bytes start) (nonempty : bytes ≠ []) (ahead : low < start)
    (near : start < low + 2 ^ 31) : Held data base low (flow.queueOoo seq bytes) := by
  -- Both branches that insert replace the entry under `seq`.
  have inserted : ∀ flow' : Flow, flow'.ooo = flow.ooo →
      flow'.oooBytes = (flow.ooo.erase seq).total List.length →
      Held data base low (Flow.queueOoo.insertOoo seq bytes flow') := by
    intro flow' ooo counted
    refine trimOoo_held ?_ ?_ le_rfl
    · intro entry member
      rcases SortedMap.mem_insert.mp member with rfl | ⟨old, _⟩
      · exact ⟨start, slice, nonempty, ahead, near⟩
      · rw [ooo] at old
        exact held.slices entry old
    · simp only [SortedMap.total_insert, ooo, counted]
  rw [Flow.queueOoo]
  split
  · exact held
  split
  · next existing found =>
    split
    · exact held
    refine inserted _ rfl ?_
    have total := total_erase List.length (SortedMap.get?_eq_some.mp found)
    simp only [held.counted]
    omega
  · next absent =>
    refine inserted _ rfl ?_
    rw [SortedMap.erase_eq_self absent, held.counted]

end

section

variable {data : List UInt8} {base : BitVec 32} {state : Established} {low pos : Nat}

theorem Receiving.stop (receiving : Receiving data base state low pos) {state' : Established}
    (dead : state'.alive = false) (peer : state'.peer = state.peer)
    (ooo : state'.flow.ooo = state.flow.ooo) (bytes : state'.flow.oooBytes = state.flow.oooBytes) :
    Stopped data state' where
  dead := dead
  passed := by
    rw [peer, receiving.passed]
    exact take_prefix ..
  ended ended := by
    rw [peer, receiving.unended] at ended
    cases ended
  counted := by rw [ooo, bytes, receiving.held.counted]
  capped := by
    rw [bytes]
    exact receiving.held.capped

theorem writeAll_spec (peer : Peer) (bytes : List UInt8) :
    ((peer.writeAll bytes).2 = true ∧ (peer.writeAll bytes).1.passed = peer.passed ++ bytes ∧
      (peer.writeAll bytes).1.ended = peer.ended) ∨
    ((peer.writeAll bytes).2 = false ∧ ∃ part, part <+: bytes ∧
      (peer.writeAll bytes).1.passed = peer.passed ++ part ∧
      (peer.writeAll bytes).1.ended = peer.ended) := by
  rw [Peer.writeAll]
  split
  · exact .inl ⟨rfl, rfl, rfl⟩
  split
  · exact .inl ⟨rfl, rfl, rfl⟩
  · exact .inr ⟨rfl, _, take_prefix .., rfl, rfl⟩

theorem Receiving.accept (receiving : Receiving data base state low pos) {fresh : List UInt8}
    (inside : pos + fresh.length ≤ data.length) (same : fresh = window data pos fresh.length) :
    ((state.accept fresh).flow.ooo = state.flow.ooo ∧ (state.accept fresh).flow.oooBytes = state.flow.oooBytes) ∧
    (Receiving data base (state.accept fresh) low (pos + fresh.length) ∨ Stopped data (state.accept fresh)) := by
  have grown : state.peer.passed ++ fresh = data.take (pos + fresh.length) := by
    nth_rewrite 1 [same]
    rw [receiving.passed, take_append_window]
  rw [Established.accept, if_pos receiving.writable]
  rcases writeAll_spec state.peer fresh with ⟨written, passed, ended⟩ | ⟨failed, part, front, passed, ended⟩
  · simp only [written, if_true]
    refine ⟨⟨trivial, trivial⟩, .inl ?_⟩
    exact
      { alive := receiving.alive
        writable := receiving.writable
        unfinished := receiving.unfinished
        unended := ended.trans receiving.unended
        next := by
          show state.flow.rcvNxt + _ = _
          rw [receiving.next, serial_add]
        passed := passed.trans grown
        inside := inside
        held := receiving.held.of_same rfl rfl }
  simp only [failed]
  refine ⟨⟨rfl, rfl⟩, .inr ?_⟩
  exact
    { dead := rfl
      passed := by
        show (state.peer.writeAll fresh).1.passed <+: data
        obtain ⟨rest, rfl⟩ := front
        rw [passed]
        refine List.IsPrefix.trans ?_ (List.take_prefix (pos + (part ++ rest).length) data)
        rw [← grown, ← append_assoc]
        exact prefix_append ..
      ended := by
        intro late
        have none : (state.peer.writeAll fresh).1.ended = false := ended.trans receiving.unended
        rw [show (state.peer.writeAll fresh).1.ended = true from late] at none
        cases none
      counted := receiving.held.counted
      capped := receiving.held.capped }

theorem IsSlice.fresh
    (slice : IsSlice data base seq bytes start) (before : start ≤ pos) (beyond : pos < start + bytes.length)
    (near : pos < start + 2 ^ 32) : sliceFrom? bytes (serial base pos - seq).toNat = some (bytes.drop (pos - start)) ∧
      pos + (bytes.drop (pos - start)).length ≤ data.length ∧
      bytes.drop (pos - start) = window data pos (bytes.drop (pos - start)).length ∧
      (bytes.drop (pos - start)).length = start + bytes.length - pos := by
  have offset : (serial base pos - seq).toNat = pos - start := by
    rw [slice.numbered, serial_sub_eq before (by omega)]
  have inside := slice.inside
  have length : (bytes.drop (pos - start)).length = start + bytes.length - pos := by
    rw [length_drop]
    omega
  refine ⟨?_, by omega, ?_, length⟩
  · rw [offset, sliceFrom?, if_pos (by omega)]
  have tail := drop_window data start bytes.length (pos - start)
  rw [← slice.same] at tail
  rw [length, tail]
  congr 1 <;> omega

theorem Receiving.drainOoo {fuel : Nat} (receiving : Receiving data base state low pos)
    (enough : state.flow.ooo.size < fuel) (ahead : low ≤ pos) (near : pos + state.flow.oooBytes < low + 2 ^ 17) :
    ∃ drained, Established.drainOoo fuel state = some drained ∧
      ((∃ pos', pos ≤ pos' ∧ Receiving data base drained pos' pos') ∨ Stopped data drained) := by
  induction fuel generalizing state pos with
  | zero => exact absurd enough (Nat.not_lt_zero _)
  | succ fuel ih =>
    rw [Established.drainOoo]
    have held := receiving.held.dropStale
    have kept : Receiving data base { state with flow := Established.dropStale state.flow } low pos :=
      { receiving with held := held }
    generalize cleaned : Established.dropStale state.flow = flow at kept held
    have next : flow.rcvNxt = serial base pos := kept.next
    have smaller : flow.oooBytes ≤ state.flow.oooBytes := by
      rw [← cleaned]
      exact Nat.sub_le ..
    have fewer : flow.ooo.size ≤ state.flow.ooo.size := by
      rw [← cleaned]
      exact List.length_filter_le ..
    have beyond : ∀ entry ∈ flow.ooo, seqLe (entry.1 + BitVec.ofNat 32 entry.2.length) flow.rcvNxt = false := by
      intro entry member
      rw [← cleaned] at member
      simpa [← cleaned, Established.dropStale] using (SortedMap.mem_filter.mp member).2
    simp only
    cases found : flow.ooo.entries.find? fun entry => seqLe entry.1 flow.rcvNxt with
    | none =>
      -- Everything left starts behind the hole.
      refine ⟨_, rfl, .inl ⟨pos, le_rfl, { kept with held := ⟨?_, held.counted, held.capped⟩ }⟩⟩
      intro entry member
      obtain ⟨start, slice, nonempty, above, below⟩ := held.slices entry member
      have later : pos < start := by
        by_contra early
        have compared := serialLe_of_le base (Nat.le_of_not_lt early)
          (show pos < start + 2 ^ 31 by omega)
        rw [← slice.numbered, ← next] at compared
        exact absurd compared (find?_eq_none.mp found entry member)
      exact ⟨start, slice, nonempty, later, by omega⟩
    | some entry =>
      obtain ⟨seq, bytes⟩ := entry
      have member : (seq, bytes) ∈ flow.ooo := mem_of_find?_eq_some found
      have due : seqLe seq flow.rcvNxt = true := by simpa using find?_some found
      obtain ⟨start, slice, _, above, below⟩ : ∃ start, IsSlice data base seq bytes start ∧ bytes ≠ [] ∧
          low < start ∧ start < low + 2 ^ 31 := held.slices _ member
      have size := SortedMap.size_erase_lt member
      have total := total_erase List.length member
      have counted := held.counted
      have before : start ≤ pos := by
        by_contra late
        have compared := serialLe_of_lt base (Nat.lt_of_not_le late)
          (show start ≤ pos + 2 ^ 31 by omega)
        rw [← slice.numbered, ← next] at compared
        rw [seqLe, compared] at due
        cases due
      have reaches : pos < start + bytes.length := by
        by_contra short
        have compared := serialLe_of_le base (Nat.le_of_not_lt short)
          (show pos < start + bytes.length + 2 ^ 31 by omega)
        rw [← serial_add, ← slice.numbered, ← next] at compared
        exact absurd (beyond _ member) (by simp [seqLe, compared])
      obtain ⟨cut, inside, same, length⟩ := slice.fresh before reaches (by omega)
      rw [← next] at cut
      simp only [cut, Option.bind_eq_bind, Option.bind_some]
      have erased : Receiving data base
          { state with
            flow := { flow with ooo := flow.ooo.erase seq, oooBytes := flow.oooBytes - bytes.length } }
          low pos := { kept with held := held.erase member }
      obtain ⟨⟨ooo, oooBytes⟩, accepted | stopped⟩ := erased.accept inside same
      · rw [if_pos accepted.alive]
        have rounds : (flow.ooo.erase seq).size < fuel := by omega
        have room : pos + (bytes.drop (pos - start)).length + (flow.oooBytes - bytes.length) <
            low + 2 ^ 17 := by omega
        obtain ⟨drained, result, outcome⟩ :=
          ih accepted (by rw [ooo]; exact rounds) (by omega) (by rw [oooBytes]; exact room)
        refine ⟨drained, result, outcome.imp_left ?_⟩
        rintro ⟨pos', further, receiving'⟩
        exact ⟨pos', by omega, receiving'⟩
      · rw [if_neg (by rw [stopped.dead]; exact Bool.false_ne_true)]
        exact ⟨_, rfl, .inr stopped⟩

theorem Receiving.onPayload (receiving : Receiving data base state pos pos)
    (slice : IsSlice data base seg.seq seg.payload start) (recent : pos < start + 2 ^ 31)
    (near : start < pos + 2 ^ 31) : ∃ next, state.onPayload seg = some next ∧
      ((∃ pos', pos ≤ pos' ∧ Receiving data base next pos' pos') ∨ Stopped data next) := by
  rw [Established.onPayload]
  split
  · exact ⟨state, rfl, .inl ⟨pos, le_rfl, receiving⟩⟩
  rename_i nonempty
  rcases Nat.lt_or_ge pos start with ahead | before
  · have compared := serialLe_of_lt base ahead (by omega)
    rw [← slice.numbered, ← receiving.next] at compared
    rw [if_neg (by rw [seqLe, compared]; exact Bool.false_ne_true)]
    obtain ⟨next, finRcvd⟩ := queueOoo_receive state.flow seg.seq seg.payload
    refine ⟨_, rfl, .inl ⟨pos, le_rfl, ?_⟩⟩
    exact { receiving with
      unfinished := finRcvd.trans receiving.unfinished
      next := next.trans receiving.next
      held := receiving.held.queueOoo slice nonempty ahead near }
  have compared := serialLe_of_le base before recent
  rw [← slice.numbered, ← receiving.next] at compared
  rw [if_pos (by rw [seqLe, compared])]
  have offset : (state.flow.rcvNxt - seg.seq).toNat = pos - start := by
    rw [receiving.next, slice.numbered, serial_sub_eq before (by omega)]
  simp only [offset]
  split
  · next some =>
    obtain ⟨cut, inside, same, length⟩ := slice.fresh before (by omega) (by omega)
    rw [← receiving.next, offset] at cut
    simp only [cut, Option.bind_eq_bind, Option.bind_some]
    obtain ⟨⟨ooo, oooBytes⟩, accepted | stopped⟩ := receiving.accept inside same
    · rw [if_pos accepted.alive]
      have small := seg.sized
      have cap : state.flow.oooBytes ≤ 65535 := receiving.held.capped
      obtain ⟨drained, result, outcome⟩ :=
        accepted.drainOoo (Nat.lt_succ_self _) (by omega) (by rw [oooBytes]; omega)
      refine ⟨drained, result, outcome.imp_left ?_⟩
      rintro ⟨pos', further, receiving'⟩
      exact ⟨pos', by omega, receiving'⟩
    · rw [if_neg (by rw [stopped.dead]; exact Bool.false_ne_true)]
      exact ⟨_, rfl, .inr stopped⟩
  · exact ⟨state, rfl, .inl ⟨pos, le_rfl, receiving⟩⟩

theorem Held.empty {flow : Flow} (held : Held data base data.length flow) : flow.ooo = .empty := by
  cases found : flow.ooo.first? with
  | none => exact SortedMap.first?_eq_none found
  | some entry =>
    obtain ⟨start, slice, nonempty, above, _⟩ := held.slices entry (SortedMap.first?_mem found)
    have inside := slice.inside
    omega

theorem Receiving.onFin (receiving : Receiving data base state pos pos)
    (truth : seg.isFin = true → ∃ start, IsSlice data base seg.seq seg.payload start ∧
    start + seg.payload.length = data.length ∧ data.length < pos + 2 ^ 32) :
    Reassembled data base (state.onFin seg) := by
  rw [Established.onFin]
  split
  · next fin =>
    obtain ⟨isFin, reached, _⟩ := fin
    obtain ⟨start, slice, last, near⟩ := truth isFin
    have all : data.length = pos := by
      have inside := receiving.inside
      apply serial_injective near (by omega)
      rw [← last, ← serial_add, ← slice.numbered, reached, receiving.next]
    subst all
    have drained := receiving.held.empty
    refine .finished ?_
    exact
      { closed := rfl
        finished := rfl
        next := by
          show state.flow.rcvNxt + 1 = _
          rw [receiving.next, ← serial_add]
          rfl
        passed := by
          simp only [receiving.writable, if_true, receiving.passed, take_length]
        drained := drained
        counted := by
          show state.flow.oooBytes = 0
          rw [receiving.held.counted, drained, total_empty] }
  · exact .receiving pos receiving

end

structure SameReceive (state other : Established) : Prop where
  alive : other.alive = state.alive
  wrOpen : other.wrOpen = state.wrOpen
  peer : other.peer = state.peer
  rcvNxt : other.flow.rcvNxt = state.flow.rcvNxt
  guestFinRcvd : other.flow.guestFinRcvd = state.flow.guestFinRcvd
  ooo : other.flow.ooo = state.flow.ooo
  oooBytes : other.flow.oooBytes = state.flow.oooBytes

/-- How far the guest's stream was received, its FIN counted as one more. -/
def Established.position (state : Established) : Nat := state.peer.passed.length + state.flow.guestFinRcvd.toNat

/-- A guest segment tells the truth about its place in the guest's data, and
is less than half the sequence space away from what was received. Only the
end of the data may carry a FIN. -/
def Carries (data : List UInt8) (base : BitVec 32) (pos : Nat) (seg : Segment) : Prop :=
  (seg.payload = [] ∧ seg.isFin = false) ∨
    ∃ start, IsSlice data base seg.seq seg.payload start ∧ pos < start + 2 ^ 31 ∧ start < pos + 2 ^ 31 ∧
      (seg.isFin = true → start + seg.payload.length = data.length)

section

variable {data : List UInt8} {base : BitVec 32} {state other : Established} {pos : Nat}

theorem Receiving.of_same (receiving : Receiving data base state pos pos) (same : SameReceive state other) :
    Receiving data base other pos pos where
  alive := same.alive.trans receiving.alive
  writable := same.wrOpen.trans receiving.writable
  unfinished := same.guestFinRcvd.trans receiving.unfinished
  unended := by rw [same.peer, receiving.unended]
  next := same.rcvNxt.trans receiving.next
  passed := by rw [same.peer, receiving.passed]
  inside := receiving.inside
  held := receiving.held.of_same same.ooo same.oooBytes

theorem Finished.of_same (finished : Finished data base state) (same : SameReceive state other) :
    Finished data base other where
  closed := same.wrOpen.trans finished.closed
  finished := same.guestFinRcvd.trans finished.finished
  next := same.rcvNxt.trans finished.next
  passed := by rw [same.peer, finished.passed]
  drained := same.ooo.trans finished.drained
  counted := same.oooBytes.trans finished.counted

theorem Reassembled.of_same (reassembled : Reassembled data base state) (same : SameReceive state other) :
    Reassembled data base other := by
  cases reassembled with
  | receiving pos receiving => exact .receiving pos (receiving.of_same same)
  | finished finished => exact .finished (finished.of_same same)
  | stopped stopped =>
    refine .stopped ⟨same.alive.trans stopped.dead, ?_, ?_, ?_, ?_⟩
    · rw [same.peer]
      exact stopped.passed
    · rw [same.peer]
      exact stopped.ended
    · rw [same.ooo, same.oooBytes, stopped.counted]
    · rw [same.oooBytes]
      exact stopped.capped

theorem Reassembled.dead (reassembled : Reassembled data base state) (dead : other.alive = false)
    (peer : other.peer = state.peer) (ooo : other.flow.ooo = state.flow.ooo)
    (bytes : other.flow.oooBytes = state.flow.oooBytes) : Reassembled data base other := by
  refine .stopped ?_
  cases reassembled with
  | receiving pos receiving => exact receiving.stop dead peer ooo bytes
  | finished finished =>
    refine ⟨dead, ?_, ?_, ?_, ?_⟩
    · exact ⟨[], by rw [append_nil, peer, finished.passed]⟩
    · intro _
      rw [peer, finished.passed]
    · rw [ooo, bytes, finished.drained, finished.counted, total_empty]
    · rw [bytes, finished.counted]
      exact Nat.zero_le _
  | stopped stopped =>
    refine ⟨dead, ?_, ?_, ?_, ?_⟩
    · rw [peer]
      exact stopped.passed
    · rw [peer]
      exact stopped.ended
    · rw [ooo, bytes, stopped.counted]
    · rw [bytes]
      exact stopped.capped

theorem onAck_receive (flow : Flow) (now : Nat) (seg : Segment) :
    (flow.onAck now seg).rcvNxt = flow.rcvNxt ∧ (flow.onAck now seg).guestFinRcvd = flow.guestFinRcvd ∧
      (flow.onAck now seg).ooo = flow.ooo ∧ (flow.onAck now seg).oooBytes = flow.oooBytes := by
  rw [Flow.onAck]
  split
  · dsimp only
    split <;> exact ⟨rfl, rfl, rfl, rfl⟩
  · exact ⟨rfl, rfl, rfl, rfl⟩

theorem emit_same (state : Established) (segment : Emitted) : SameReceive state (state.emit segment) :=
  ⟨rfl, rfl, rfl, rfl, rfl, rfl, rfl⟩

theorem Receiving.position_eq (receiving : Receiving data base state pos pos) : state.position = pos := by
  have inside := receiving.inside
  rw [Established.position, receiving.passed, receiving.unfinished, length_take]
  exact Nat.min_eq_left inside

section

variable (finished : Finished data base state)
include finished

theorem Finished.position_eq : state.position = data.length + 1 := by
  rw [Established.position, finished.passed, finished.finished]
  rfl

theorem Finished.onPayload
    (slice : IsSlice data base seg.seq seg.payload start) (recent : data.length + 1 < start + 2 ^ 31) :
    state.onPayload seg = some state := by
  have inside := slice.inside
  have before : start ≤ data.length + 1 := by omega
  have compared := serialLe_of_le base before recent
  rw [← slice.numbered, ← finished.next] at compared
  have offset : (state.flow.rcvNxt - seg.seq).toNat = data.length + 1 - start := by
    rw [finished.next, slice.numbered, serial_sub_eq before (by omega)]
  rw [Established.onPayload]
  split
  · rfl
  rw [if_pos (by rw [seqLe, compared])]
  simp only [offset]
  rw [if_neg (by omega)]

theorem Finished.onFin (seg : Segment) : state.onFin seg = state := by
  rw [Established.onFin, if_neg]
  rintro ⟨_, _, unfinished⟩
  rw [finished.finished] at unfinished
  cases unfinished

end

section

variable (reassembled : Reassembled data base state) (alive : state.alive = true)
  (carries : Carries data base state.position seg)
include reassembled alive carries

theorem onPayload_onFin : ∃ next, state.onPayload seg = some next ∧
      ((next.alive = true ∧ Reassembled data base (next.onFin seg)) ∨ Stopped data next) := by
  rcases carries with ⟨none, noFin⟩ | ⟨start, slice, recent, near, last⟩
  · refine ⟨state, by rw [Established.onPayload, if_pos none], .inl ⟨alive, ?_⟩⟩
    rw [Established.onFin, if_neg (by rw [noFin]; rintro ⟨fin, _⟩; cases fin)]
    exact reassembled
  cases reassembled with
  | receiving pos receiving =>
    rw [receiving.position_eq] at recent near
    obtain ⟨next, result, ⟨pos', further, receiving'⟩ | stopped⟩ := receiving.onPayload slice recent near
    · refine ⟨next, result, .inl ⟨receiving'.alive, receiving'.onFin ?_⟩⟩
      intro isFin
      have small := seg.sized
      have whole := last isFin
      exact ⟨start, slice, whole, by omega⟩
    · exact ⟨next, result, .inr stopped⟩
  | finished finished =>
    rw [finished.position_eq] at recent
    refine ⟨state, finished.onPayload slice recent, .inl ⟨alive, ?_⟩⟩
    rw [finished.onFin]
    exact .finished finished
  | stopped stopped =>
    rw [stopped.dead] at alive
    cases alive

theorem Reassembled.onSegment (now : Nat) :
    ∃ next, state.onSegment now seg = some next ∧ Reassembled data base next := by
  rw [Established.onSegment]
  split
  · exact ⟨_, rfl, reassembled.dead rfl rfl rfl rfl⟩
  obtain ⟨rcvNxt, guestFinRcvd, ooo, oooBytes⟩ := onAck_receive { state.flow with lastActivity := now } now seg
  generalize { state.flow with lastActivity := now }.onAck now seg = flow at *
  have same : SameReceive state { state with flow } := ⟨rfl, rfl, rfl, rcvNxt, guestFinRcvd, ooo, oooBytes⟩
  have position : Established.position { state with flow } = state.position := by
    rw [Established.position, Established.position]
    exact congrArg (fun fin : Bool => state.peer.passed.length + fin.toNat) guestFinRcvd
  rw [← position] at carries
  obtain ⟨next, result, outcome⟩ := onPayload_onFin (reassembled.of_same same) alive carries
  simp only [result, Option.bind_eq_bind, Option.bind_some]
  rcases outcome with ⟨goesOn, kept⟩ | stopped
  · rw [if_pos goesOn]
    split
    · exact ⟨_, rfl, kept.of_same (emit_same ..)⟩
    · exact ⟨_, rfl, kept⟩
  · rw [if_neg (by rw [stopped.dead]; exact Bool.false_ne_true)]
    exact ⟨_, rfl, .stopped stopped⟩

end

theorem onRto_receive (flow : Flow) (now : Nat) :
    (flow.onRto now).1.rcvNxt = flow.rcvNxt ∧ (flow.onRto now).1.guestFinRcvd = flow.guestFinRcvd ∧
      (flow.onRto now).1.ooo = flow.ooo ∧ (flow.onRto now).1.oooBytes = flow.oooBytes := by
  rw [Flow.onRto]
  dsimp only
  split <;> exact ⟨rfl, rfl, rfl, rfl⟩

theorem Reassembled.step (reassembled : Reassembled data base state) (now : Nat) {event : Established.Event}
    (truthful : state.alive = true → ∀ seg, event = .segment seg → Carries data base state.position seg) :
    ∃ next, state.step now event = some next ∧ Reassembled data base next := by
  unfold Established.step
  split
  · exact ⟨state, rfl, reassembled⟩
  rename_i notDead
  have alive : state.alive = true := by simpa using notDead
  split
  · exact ⟨_, rfl, reassembled.dead rfl rfl rfl rfl⟩
  cases event with
  | segment seg => exact reassembled.onSegment alive (truthful alive seg rfl) now
  | read bytes =>
    dsimp only
    split
    · split
      · exact ⟨_, rfl, reassembled.of_same ⟨rfl, rfl, rfl, rfl, rfl, rfl, rfl⟩⟩
      · exact ⟨_, rfl, reassembled.of_same ⟨rfl, rfl, rfl, rfl, rfl, rfl, rfl⟩⟩
    · exact ⟨state, rfl, reassembled⟩
  | probe =>
    dsimp only
    split
    · exact ⟨_, rfl, reassembled.of_same (emit_same ..)⟩
    · exact ⟨state, rfl, reassembled⟩
  | timeout =>
    obtain ⟨rcvNxt, guestFinRcvd, ooo, oooBytes⟩ := onRto_receive state.flow now
    dsimp only
    split
    · split
      · refine ⟨_, rfl, ?_⟩
        cases goOn : (state.flow.onRto now).2.2 with
        | false => exact reassembled.dead rfl rfl ooo oooBytes
        | true =>
          exact reassembled.of_same ⟨alive.symm, rfl, rfl, rcvNxt, guestFinRcvd, ooo, oooBytes⟩
      · exact ⟨state, rfl, reassembled⟩
    · exact ⟨state, rfl, reassembled⟩
  | idle =>
    dsimp only
    split
    · exact ⟨_, rfl, reassembled.dead rfl rfl rfl rfl⟩
    · exact ⟨state, rfl, reassembled⟩

end

def Truthful (data : List UInt8) (base : BitVec 32) : Established → List (Nat × Established.Event) → Prop
  | _, [] => True
  | state, (now, event) :: rest =>
    (state.alive = true → ∀ seg, event = .segment seg → Carries data base state.position seg) ∧
      ∀ next, state.step now event = some next → Truthful data base next rest

theorem Reassembled.run {data : List UInt8} {base : BitVec 32} {state : Established}
    (reassembled : Reassembled data base state) {events : List (Nat × Established.Event)}
    (truthful : Truthful data base state events) :
    ∃ final, state.run events = some final ∧ Reassembled data base final := by
  induction events generalizing state with
  | nil => exact ⟨state, rfl, reassembled⟩
  | cons head rest ih =>
    obtain ⟨now, event⟩ := head
    obtain ⟨here, later⟩ := truthful
    obtain ⟨next, stepped, kept⟩ := reassembled.step now here
    obtain ⟨final, ran, result⟩ := ih kept (later next stepped)
    refine ⟨final, ?_, result⟩
    rw [Established.run, stepped]
    exact ran

/-- A flow whose handshake with a guest that numbers from `isn` is complete. -/
inductive Opened (isn : BitVec 32) : Flow → Prop where
  | passive (mtu : UInt16) (ours : BitVec 32) (now : Nat) (syn seg : Segment) (numbered : syn.seq = isn) :
      Opened isn ((Flow.new mtu ours now syn).establishPassive seg)
  | active (mtu : UInt16) (ours : BitVec 32) (now : Nat) (synAck : Segment) (numbered : synAck.seq = isn) :
      Opened isn ((Flow.newActive mtu ours now).establishActive synAck)

theorem Opened.receiving {isn : BitVec 32} {flow : Flow} (opened : Opened isn flow) (data : List UInt8)
    (room : Option Nat) : Receiving data (isn + 1) (Established.start flow room) 0 0 := by
  have held : ∀ flow : Flow, flow.ooo = .empty → flow.oooBytes = 0 → Held data (isn + 1) 0 flow := by
    intro flow ooo bytes
    refine ⟨?_, ?_, ?_⟩
    · intro entry member
      rw [ooo] at member
      exact absurd member SortedMap.not_mem_empty
    · rw [ooo, bytes, total_empty]
    · rw [bytes]
      exact Nat.zero_le _
  cases opened with
  | passive mtu ours now syn seg numbered | active mtu ours now synAck numbered =>
    subst numbered
    exact ⟨rfl, rfl, rfl, rfl, (serial_zero _).symm, rfl, Nat.zero_le _, held _ rfl rfl⟩

/-- Whatever order the guest's segments come in, duplicated, overlapping,
partly old or lost, and whatever the proxied stream does meanwhile: no slice
is out of range, and after every event the bytes passed on are the part of the
guest's data that `rcvNxt` counts as received, the end is signalled only
behind all of it, and the queue's counter is exact and capped. -/
theorem established_reassembles {data : List UInt8} {isn : BitVec 32} {flow : Flow}
    (opened : Opened isn flow) (room : Option Nat) {events : List (Nat × Established.Event)}
    (truthful : Truthful data (isn + 1) (Established.start flow room) events) :
    ∃ state, (Established.start flow room).run events = some state ∧
      (state.alive = true → ∃ pos, pos ≤ data.length + 1 ∧
        (state.flow.rcvNxt - isn - 1).toNat = pos % 2 ^ 32 ∧ state.peer.passed = data.take pos) ∧
      state.peer.passed <+: data ∧
      (state.peer.ended = true → state.peer.passed = data) ∧
      state.flow.oooBytes = state.flow.ooo.total List.length ∧ state.flow.oooBytes ≤ oooMaxBytes := by
  obtain ⟨state, ran, reassembled⟩ := (Reassembled.receiving 0 (opened.receiving data room)).run truthful
  have distance : ∀ pos, (serial (isn + 1) pos - isn - 1).toNat = pos % 2 ^ 32 := by
    intro pos
    have shifted : serial (isn + 1) pos - isn - 1 = serial (isn + 1) pos - (isn + 1) := by
      rw [BitVec.sub_sub]
    rw [shifted, serial_sub_base]
  refine ⟨state, ran, ?_⟩
  cases reassembled with
  | receiving pos receiving =>
    refine ⟨fun _ => ⟨pos, ?_, ?_, receiving.passed⟩, ?_, ?_, receiving.held.counted, receiving.held.capped⟩
    · exact Nat.le_succ_of_le receiving.inside
    · rw [receiving.next, distance]
    · rw [receiving.passed]
      exact take_prefix ..
    · intro ended
      rw [receiving.unended] at ended
      cases ended
  | finished finished =>
    refine ⟨fun _ => ⟨data.length + 1, le_rfl, ?_, ?_⟩, ?_, fun _ => finished.passed, ?_, ?_⟩
    · rw [finished.next, distance]
    · rw [finished.passed, take_of_length_le (Nat.le_succ _)]
    · exact ⟨[], by rw [append_nil, finished.passed]⟩
    · rw [finished.drained, finished.counted, total_empty]
    · rw [finished.counted]
      exact Nat.zero_le _
  | stopped stopped =>
    refine ⟨?_, stopped.passed, stopped.ended, stopped.counted, stopped.capped⟩
    intro alive
    rw [stopped.dead] at alive
    cases alive

def guestSegment (seq : BitVec 32) (flags : UInt8) (payload : List UInt8)
    (sized : payload.length < 2 ^ 16) : Segment :=
  { seq, ack := 8, flags, window := 1000, payload, mss := none, sized }

theorem noPayload_sized : ([] : List UInt8).length < 2 ^ 16 := by decide

/-- Three bytes behind a SYN numbered just before the wrap: the last two with
the FIN come first, then the first one, then the FIN again. -/
def reorderedFlow : Flow :=
  (Flow.new 1500 7 0 (guestSegment 0xFFFFFFFE tcpSyn [] noPayload_sized)).establishPassive
    (guestSegment 0xFFFFFFFF tcpAck [] noPayload_sized)

def reorderedEvents : List (Nat × Established.Event) :=
  [(1, .segment (guestSegment 0 (tcpAck ||| tcpFin) [20, 30] (by decide))),
    (2, .segment (guestSegment 0xFFFFFFFF tcpAck [10] (by decide))),
    (3, .segment (guestSegment 2 (tcpAck ||| tcpFin) [] noPayload_sized))]

theorem reordered_truthful :
    Truthful [10, 20, 30] (0xFFFFFFFE + 1) (Established.start reorderedFlow none) reorderedEvents := by
  refine ⟨fun _ seg shape => .inr ⟨1, ?_⟩, fun first ran => ⟨fun _ seg shape => .inr ⟨0, ?_⟩,
    fun second ran' => ⟨fun _ seg shape => .inr ⟨3, ?_⟩, fun _ _ => trivial⟩⟩⟩
  · cases shape
    exact ⟨⟨by decide, by decide, by decide⟩, by decide, by decide, by decide⟩
  · cases shape
    have here : (some first).map Established.position = some 0 := by
      rw [← ran]
      decide
    rw [Option.some.inj here]
    exact ⟨⟨by decide, by decide, by decide⟩, by decide, by decide, by decide⟩
  cases shape
  have here : ((some first).bind fun state => state.step 2
      (.segment (guestSegment 0xFFFFFFFF tcpAck [10] (by decide)))).map Established.position = some 3 := by
    rw [← ran]
    decide
  rw [Option.bind_some, ran'] at here
  rw [Option.some.inj here]
  exact ⟨⟨by decide, by decide, by decide⟩, by decide, by decide, by decide⟩

theorem established_reassembles_reordered : ((Established.start reorderedFlow none).run reorderedEvents).map
        (fun state => (state.peer.passed, state.peer.ended)) = some ([10, 20, 30], true) ∧
      ∃ state, (Established.start reorderedFlow none).run reorderedEvents = some state ∧
        (state.alive = true → ∃ pos, pos ≤ [10, 20, 30].length + 1 ∧
          (state.flow.rcvNxt - 0xFFFFFFFE - 1).toNat = pos % 2 ^ 32 ∧
          state.peer.passed = [10, 20, 30].take pos) ∧
        state.flow.oooBytes ≤ oooMaxBytes := by
  have opened : Opened 0xFFFFFFFE reorderedFlow := .passive 1500 7 0 _ _ rfl
  obtain ⟨state, ran, received, _, _, _, capped⟩ := established_reassembles opened none reordered_truthful
  exact ⟨by decide, state, ran, received, capped⟩

end Vmlab.Net.Nat
