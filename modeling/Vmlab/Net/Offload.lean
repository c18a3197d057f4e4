import Vmlab.Library.OnesComplement

/-!
# Switch metadata and software offload completion

The virtio-net header that accompanies a frame between capable ports, its
validation against the frame, and the segmentation a raw port needs
(`vmlab-hv-proto/src/net.rs`).
-/

namespace Vmlab.Net

open Library

inductive IoErrorKind where
  | unexpectedEof
  | invalidData
  | invalidInput
  deriving DecidableEq

structure IoError where
  kind : IoErrorKind
  message : String
  deriving DecidableEq

abbrev IoResult (α : Type) := Except IoError α

namespace Offload

def maxFrameLen : Nat := 65536 + 14
def metadataLen : Nat := 16
def needsCsum : UInt8 := 1
def dataValid : UInt8 := 2
def gsoNone : UInt8 := 0
def gsoTcpv4 : UInt8 := 1
def gsoTcpv6 : UInt8 := 4
def gsoUdp : UInt8 := 5
def gsoEcn : UInt8 := 128

structure Header where
  flags : UInt8
  gsoType : UInt8
  hdrLen : UInt16
  gsoSize : UInt16
  csumStart : UInt16
  csumOffset : UInt16
  deriving DecidableEq

def Header.none : Header := { flags := 0, gsoType := 0, hdrLen := 0, gsoSize := 0, csumStart := 0, csumOffset := 0 }

def invalid : IoError := { kind := .invalidData, message := "invalid virtio-net offload packet" }

section

variable (bytes : List UInt8)

def be16 (start : Nat) : IoResult UInt16 :=
  if start + 2 ≤ bytes.length then .ok (UInt16.ofNat (bigEndian (window bytes start 2)))
  else .error invalid

def byteAt (start : Nat) : IoResult UInt8 :=
  match bytes[start]? with
  | some byte => .ok byte
  | Option.none => .error invalid

def le16 (start : Nat) : UInt16 := UInt16.ofNat (bigEndian (window bytes start 2).reverse)

end

def toLe16 (word : UInt16) : List UInt8 := (toBigEndian 2 word.toNat).reverse

def Header.kind (header : Header) : UInt8 := header.gsoType &&& ~~~gsoEcn

def Header.wellTyped (header : Header) : Bool :=
  header.flags &&& ~~~(needsCsum ||| dataValid) = 0 ∧
    header.flags ≠ needsCsum ||| dataValid ∧
    (header.kind = gsoNone ∨ header.kind = gsoTcpv4 ∨ header.kind = gsoTcpv6 ∨ header.kind = gsoUdp) ∧
    (header.gsoType &&& gsoEcn = 0 ∨ header.kind = gsoTcpv4 ∨ header.kind = gsoTcpv6)

def Header.decode (bytes : List UInt8) : IoResult Header :=
  if bytes.length < 10 then .error invalid
  else
    let header : Header :=
      { flags := bytes.getD 0 0
        gsoType := bytes.getD 1 0
        hdrLen := le16 bytes 2
        gsoSize := le16 bytes 4
        csumStart := le16 bytes 6
        csumOffset := le16 bytes 8 }
    if header.wellTyped then .ok header else .error invalid

def Header.encode (header : Header) : List UInt8 :=
  [header.flags, header.gsoType] ++ toLe16 header.hdrLen ++ toLe16 header.gsoSize ++
    toLe16 header.csumStart ++ toLe16 header.csumOffset ++ [0, 0]

structure Layout where
  ip : Nat
  transport : Nat
  protocol : UInt8
  ipv4 : Bool

def Layout.skipTags (frame : List UInt8) : Nat → Nat → UInt16 → IoResult (Nat × UInt16)
  | 0, ip, kind => .ok (ip, kind)
  | count + 1, ip, kind =>
    if kind = 0x8100 ∨ kind = 0x88a8 then do
      let kind ← be16 frame (ip + 2)
      Layout.skipTags frame count (ip + 4) kind
    else .ok (ip, kind)

def Layout.skipExtensions (frame : List UInt8) : Nat → Nat → UInt8 → IoResult (Nat × UInt8)
  | 0, start, protocol => .ok (start, protocol)
  | count + 1, start, protocol =>
    if protocol = 0 ∨ protocol = 43 ∨ protocol = 60 ∨ protocol = 51 then do
      let next ← byteAt frame start
      let len ← byteAt frame (start + 1)
      let size := if protocol = 51 then (len.toNat + 2) * 4 else (len.toNat + 1) * 8
      Layout.skipExtensions frame count (start + size) next
    else .ok (start, protocol)

def Layout.network (frame : List UInt8) (ip : Nat) (kind : UInt16) : IoResult (Nat × UInt8 × Bool) :=
  if kind = 0x0800 then do
    let first ← byteAt frame ip
    let len := (first &&& 15).toNat * 4
    if first >>> 4 ≠ 4 ∨ len < 20 then .error invalid
    else
      let fragment ← be16 frame (ip + 6)
      if fragment &&& 0x3fff ≠ 0 then .error invalid
      else
        let protocol ← byteAt frame (ip + 9)
        .ok (ip + len, protocol, true)
  else if kind = 0x86dd then do
    let first ← byteAt frame ip
    if first >>> 4 ≠ 6 then .error invalid
    else
      let protocol ← byteAt frame (ip + 6)
      let (start, protocol) ← Layout.skipExtensions frame 8 (ip + 40) protocol
      .ok (start, protocol, false)
  else .error invalid

def leastTransport (protocol : UInt8) : IoResult Nat :=
  if protocol = 6 then .ok 20 else if protocol = 17 then .ok 8 else .error invalid

def Layout.parse (frame : List UInt8) : IoResult Layout := do
  let kind ← be16 frame 12
  let (ip, kind) ← Layout.skipTags frame 2 14 kind
  let (transport, protocol, ipv4) ← Layout.network frame ip kind
  let least ← leastTransport protocol
  if frame.length < transport + least then .error invalid
  else .ok { ip, transport, protocol, ipv4 }

def Header.matchesLayout (header : Header) (layout : Layout) : Bool :=
  let tcp : Bool := header.kind = gsoTcpv4 ∨ header.kind = gsoTcpv6
  header.gsoSize ≠ 0 ∧ header.flags &&& needsCsum ≠ 0 ∧
    header.csumStart.toNat = layout.transport ∧
    header.csumOffset = (if tcp then 16 else 6) ∧
    (tcp → layout.protocol = 6) ∧ (tcp = false → layout.protocol = 17) ∧
    (header.kind = gsoTcpv4 → layout.ipv4) ∧ (header.kind = gsoTcpv6 → layout.ipv4 = false)

def Header.validate (header : Header) (frame : List UInt8) : IoResult Unit := do
  let _ ← Header.decode header.encode
  if maxFrameLen < frame.length ∨ frame.length < 14 then .error invalid
  else if header.flags &&& needsCsum ≠ 0 ∧
      frame.length < header.csumStart.toNat + header.csumOffset.toNat + 2 then .error invalid
  else if header.kind ≠ gsoNone then
    let layout ← Layout.parse frame
    if header.matchesLayout layout then .ok () else .error invalid
  else .ok ()

def Header.metadata (header : Header) (queue : UInt16) : List UInt8 :=
  toBigEndian 2 1 ++ toBigEndian 2 queue.toNat ++ header.encode

def Header.fromMetadata (body : List UInt8) : IoResult (Header × UInt16 × List UInt8) := do
  if body.length < metadataLen then .error invalid
  else
    let version ← be16 body 0
    if version ≠ 1 then .error invalid
    else
      let header ← Header.decode (window body 4 12)
      let frame := body.drop metadataLen
      header.validate frame
      let queue ← be16 body 2
      .ok (header, queue, frame)

def sumWords : List UInt8 → Nat
  | [] => 0
  | [last] => last.toNat * 256
  | high :: low :: rest => high.toNat * 256 + low.toNat + sumWords rest

def foldCarriesWith : Nat → Nat → Nat
  | 0, sum => sum
  | fuel + 1, sum =>
    if sum ≤ 0xffff then sum else foldCarriesWith fuel (sum % 0x10000 + sum / 0x10000)

def foldCarries (sum : Nat) : Nat := foldCarriesWith sum sum

def finishSum (sum : Nat) : UInt16 := ~~~(UInt16.ofNat (foldCarries sum))

def checksum (bytes : List UInt8) : UInt16 := finishSum (sumWords bytes)

def Layout.transportChecksum (layout : Layout) (frame : List UInt8) : UInt16 :=
  let len := frame.length - layout.transport
  let pseudo :=
    if layout.ipv4 then
      sumWords (window frame (layout.ip + 12) 8) + sumWords [0, layout.protocol] + sumWords (toBigEndian 2 len)
    else
      sumWords (window frame (layout.ip + 8) 32) + sumWords (toBigEndian 4 len) + sumWords [0, 0, 0, layout.protocol]
  finishSum (pseudo + sumWords (frame.drop layout.transport))

def tryU16 (value : Nat) : IoResult Nat := if value < 0x10000 then .ok value else .error invalid

def Layout.patchNetwork (layout : Layout) (frame part : List UInt8) (index : Nat) : IoResult (List UInt8) :=
  if layout.ipv4 then do
    let length ← tryU16 (part.length - layout.ip)
    let id ← be16 frame (layout.ip + 4)
    let part := overwrite part (layout.ip + 2) (toBigEndian 2 length)
    let part := overwrite part (layout.ip + 4) (toBigEndian 2 (id + UInt16.ofNat index).toNat)
    let part := overwrite part (layout.ip + 10) [0, 0]
    let value := checksum (window part layout.ip (layout.transport - layout.ip))
    .ok (overwrite part (layout.ip + 10) (toBigEndian 2 value.toNat))
  else do
    let length ← tryU16 (part.length - layout.ip - 40)
    .ok (overwrite part (layout.ip + 4) (toBigEndian 2 length))

def Layout.patchTransport (layout : Layout) (frame part : List UInt8) (tcp : Bool)
    (index count offset : Nat) : List UInt8 :=
  let transport := layout.transport
  if tcp then
    let sequence := bigEndian (window frame (transport + 4) 4)
    let part := overwrite part (transport + 4) (toBigEndian 4 (sequence + offset))
    let flags := part.getD (transport + 13) 0
    let flags := if index + 1 ≠ count then flags &&& ~~~(1 ||| 8) else flags
    let flags := if index ≠ 0 then flags &&& ~~~128 else flags
    overwrite part (transport + 13) [flags]
  else overwrite part (transport + 4) (toBigEndian 2 (part.length - transport))

def Layout.segment (layout : Layout) (frame : List UInt8) (payload size count : Nat) (tcp : Bool)
    (index : Nat) : IoResult (List UInt8) := do
  let offset := index * size
  let data := frame.drop payload
  let part := frame.take payload ++ (data.take (offset + size)).drop offset
  let part ← layout.patchNetwork frame part index
  let part := layout.patchTransport frame part tcp index count offset
  let field := layout.transport + (if tcp then 16 else 6)
  let part := overwrite part field [0, 0]
  let value := layout.transportChecksum part
  let value := if tcp = false ∧ value = 0 then 0xffff else value
  .ok (overwrite part field (toBigEndian 2 value.toNat))

def Header.complete (header : Header) (frame : List UInt8) : List UInt8 :=
  if header.flags &&& needsCsum ≠ 0 then
    let start := header.csumStart.toNat
    let value := checksum (frame.drop start)
    let value := if value = 0 then 0xffff else value
    overwrite frame (start + header.csumOffset.toNat) (toBigEndian 2 value.toNat)
  else frame

def Layout.payloadStart (layout : Layout) (frame : List UInt8) (tcp : Bool) : IoResult Nat :=
  if tcp then do
    let byte ← byteAt frame (layout.transport + 12)
    let len := (byte >>> 4).toNat * 4
    if len < 20 then .error invalid else .ok (layout.transport + len)
  else .ok (layout.transport + 8)

def Header.segmentFrames (header : Header) (frame : List UInt8) (mtu : UInt16) :
    IoResult (List (List UInt8)) := do
  let layout ← Layout.parse frame
  let tcp : Bool := layout.protocol = 6
  let payload ← layout.payloadStart frame tcp
  if frame.length < payload then .error invalid
  else if mtu.toNat < payload - layout.ip then .error invalid
  else
    let budget := mtu.toNat - (payload - layout.ip)
    let size := min budget header.gsoSize.toNat
    let dataLen := frame.length - payload
    if size = 0 then .error invalid
    -- Datagram boundaries must survive, unlike a TCP segment's size.
    else if tcp = false ∧ budget < min header.gsoSize.toNat dataLen then .error invalid
    else
      let count := max ((dataLen + size - 1) / size) 1
      if 4 * 1024 * 1024 < count * payload + dataLen then .error invalid
      else (List.range count).mapM (layout.segment frame payload size count tcp)

def Header.segments (header : Header) (frame : List UInt8) (mtu : UInt16) :
    IoResult (List (List UInt8)) := do
  header.validate frame
  if header.gsoType = gsoNone then .ok [header.complete frame]
  else header.segmentFrames frame mtu

def hashByte (hash : UInt32) (byte : UInt8) : UInt32 := (hash ^^^ UInt32.ofNat byte.toNat) * 16777619

def hashBytes (hash : UInt32) (bytes : List UInt8) : UInt32 := bytes.foldl hashByte hash

def flowHash (frame : List UInt8) : UInt32 :=
  let seed : UInt32 := 2166136261
  match Layout.parse frame with
  | .ok layout =>
    let (source, destination) :=
      if layout.ipv4 then (window frame (layout.ip + 12) 4, window frame (layout.ip + 16) 4)
      else (window frame (layout.ip + 8) 16, window frame (layout.ip + 24) 16)
    let sourcePort := window frame layout.transport 2
    let destinationPort := window frame (layout.transport + 2) 2
    let ordered := source < destination ∨ (source = destination ∧ sourcePort ≤ destinationPort)
    let ends :=
      if ordered then source ++ sourcePort ++ destination ++ destinationPort
      else destination ++ destinationPort ++ source ++ sourcePort
    hashBytes seed (ends ++ [layout.protocol])
  | .error _ => hashBytes seed (frame.take 14)

end Offload

end Vmlab.Net

/-! ### Sums fold to one value -/

namespace Vmlab.Net.Offload

open Library List

theorem foldCarriesWith_folded {fuel sum : Nat} (enough : sum ≤ fuel) : Folded sum (foldCarriesWith fuel sum) := by
  induction fuel generalizing sum with
  | zero =>
    cases Nat.le_zero.mp enough
    exact ⟨by decide, rfl, Iff.rfl⟩
  | succ fuel ih =>
    rw [foldCarriesWith]
    split
    · next small => exact ⟨small, rfl, Iff.rfl⟩
    · next carry =>
      have folded := ih (by omega : sum % 0x10000 + sum / 0x10000 ≤ fuel)
      have same := folded.same
      exact ⟨folded.small, by omega, folded.positive.trans (by omega)⟩

theorem foldCarries_folded (sum : Nat) : Folded sum (foldCarries sum) := foldCarriesWith_folded (Nat.le_refl sum)

theorem toNat_finishSum (sum : Nat) : (finishSum sum).toNat = 0xffff - foldCarries sum := by
  have small := (foldCarries_folded sum).small
  rw [finishSum, UInt16.toNat_not, UInt16.toNat_ofNat_of_lt' (by show _ < 65536; omega)]
  rfl

theorem finishSum_eq_zero {sum : Nat} : finishSum sum = 0 ↔ 0 < sum ∧ sum % 0xffff = 0 := by
  have folded := foldCarries_folded sum
  have value := toNat_finishSum sum
  have small := folded.small
  have same := folded.same
  have positive := folded.positive
  rw [← UInt16.toNat_inj, value]
  show _ = 0 ↔ _
  omega

theorem finishSum_add_finishSum (sum : Nat) : finishSum (sum + (finishSum sum).toNat) = 0 := by
  have folded := foldCarries_folded sum
  have small := folded.small
  have same := folded.same
  have positive := folded.positive
  rw [finishSum_eq_zero, toNat_finishSum]
  omega

theorem finishSum_add_full {sum : Nat} (zero : finishSum sum = 0) : finishSum (sum + 0xffff) = 0 := by
  rw [finishSum_eq_zero] at zero ⊢
  omega

theorem sum_wordsOf (bytes : List UInt8) : (wordsOf bytes).sum = sumWords bytes := by
  induction bytes using sumWords.induct with
  | case1 => rfl
  | case2 last => simp [wordsOf, sumWords]
  | case3 high low rest ih => rw [wordsOf, sum_cons, sumWords, ih]

theorem onesSum_eq_full_iff {bytes : List UInt8} : onesSum bytes = 0xffff ↔ checksum bytes = 0 := by
  rw [onesSum_eq_full, sum_wordsOf, checksum, finishSum_eq_zero]

theorem sumWords_append {left : List UInt8} (even : 2 ∣ left.length) (right : List UInt8) :
    sumWords (left ++ right) = sumWords left + sumWords right := by
  induction left using sumWords.induct with
  | case1 => simp [sumWords]
  | case2 last => simp at even
  | case3 high low rest ih =>
    have even : 2 ∣ rest.length := by
      simp only [length_cons] at even
      omega
    simp only [cons_append, sumWords, ih even]
    omega

theorem sumWords_toBigEndian {value : Nat} (fits : value < 0x10000) : sumWords (toBigEndian 2 value) = value := by
  have bytes : toBigEndian 2 value = [UInt8.ofNat (value / 256), UInt8.ofNat value] := rfl
  rw [bytes]
  simp only [sumWords, UInt8.toNat_ofNat']
  omega

theorem sumWords_overwrite {bytes : List UInt8} {start value : Nat} (even : 2 ∣ start)
    (inside : start + 2 ≤ bytes.length) (fits : value < 0x10000) :
    sumWords (overwrite bytes start (toBigEndian 2 value)) = sumWords (overwrite bytes start [0, 0]) + value := by
  have before : 2 ∣ (bytes.take start).length := by
    rw [length_take, Nat.min_eq_left (by omega)]
    exact even
  have written (patch : List UInt8) (length : patch.length = 2) :
      sumWords (overwrite bytes start patch) =
        sumWords (bytes.take start) + (sumWords patch + sumWords (bytes.drop (start + 2))) := by
    rw [overwrite, append_assoc, sumWords_append before, sumWords_append (by rw [length]), length]
  have zero : sumWords [0, 0] = 0 := by decide
  rw [written _ (length_toBigEndian 2 value), written [0, 0] rfl, sumWords_toBigEndian fits, zero]
  omega

theorem checksum_overwrite {bytes : List UInt8} {start : Nat} (even : 2 ∣ start) (inside : start + 2 ≤ bytes.length) :
    checksum (overwrite bytes start (toBigEndian 2 (checksum (overwrite bytes start [0, 0])).toNat)) = 0 := by
  rw [checksum, sumWords_overwrite even inside (UInt16.toNat_lt _)]
  exact finishSum_add_finishSum _

theorem sumWords_take_le (bytes : List UInt8) (count : Nat) : sumWords (bytes.take count) ≤ sumWords bytes := by
  induction bytes using sumWords.induct generalizing count with
  | case1 => simp [sumWords]
  | case2 last =>
    cases count with
    | zero => simp [sumWords]
    | succ count => simp
  | case3 high low rest ih =>
    match count with
    | 0 => simp [sumWords]
    | 1 =>
      simp only [take_succ_cons, take_zero, sumWords]
      omega
    | count + 2 =>
      have later := ih count
      simp only [take_succ_cons, sumWords]
      omega

end Vmlab.Net.Offload
