/-
# `P2PStream.Node.Checksum` — the headers of a packet and their checksums

`PacketGenerate` writes an Ethernet, an IP and a UDP header in front of the data.  The
machine is little-endian: `CalSumEach16bit` reads its words with the bytes swapped, and
the checksums are stored as they are computed.  `iphdr->check` is cleared before it is
computed, `udphdr->check` is not; `SendPacket`, the only caller, clears the whole packet.
-/
import P2PStream.Lib.OnesComplement
import P2PStream.Node.Receive

namespace P2PStream

open Lib

/-! ## Sums of words -/

/-- `*buf` of a `u16 *`. -/
def readWord (buf : Buf) : UInt16 := UInt16.ofNat ((buf 0).toNat + 256 * (buf 1).toNat)

/-- The loop of `CalSumEach16bit`. -/
def calSumEach16bitLoop : Nat → Buf → UInt32 → UInt32
  | 0, _, sum => sum
  | 1, buf, sum => sum + (buf 0).toUInt32
  | size + 2, buf, sum => calSumEach16bitLoop size (buf.drop 2) (sum + (readWord buf).toUInt32)

/-- `CalSumEach16bit`. -/
def calSumEach16bit (buf : Buf) (size : Nat) : UInt32 := calSumEach16bitLoop size buf 0

/-- `( sum >> 16 ) + ( sum & 0xffff )`. -/
def foldSum (sum : UInt32) : UInt32 := (sum >>> 16) + (sum &&& 0xffff)

/-- The end of both checksums: two folds, and every bit flipped. -/
def foldChecksum (sum : UInt32) : UInt16 := (~~~(foldSum (foldSum sum) &&& 0xffff)).toUInt16

/-- `CalIPChecksum`. -/
def calIPChecksum (buf : Buf) (size : Nat) : UInt16 := foldChecksum (calSumEach16bit buf size)

/-- `sizeof( struct PseudoIP_header )`. -/
def pseudoHeaderBytes : Nat := 12

/-- `CalL4Checksum`. -/
def calL4Checksum (buf : Buf) (size : Nat) (pseudo : Buf) : UInt16 :=
  foldChecksum (calSumEach16bit pseudo pseudoHeaderBytes + calSumEach16bit buf size)

/-! ## Headers -/

def etherHdrBytes : Nat := 14
def ipHdrBytes : Nat := 20

/-- A number as the machine stores it. -/
def toLe (w n : Nat) : List UInt8 := (toBe w n).reverse

def ethHeader (shost dhost : Fin 6 → UInt8) : List UInt8 :=
  List.ofFn dhost ++ List.ofFn shost ++ toBe 2 0x0800

/-- The IP header without its checksum: version and length of the header, `tos`, `tot_len`, `id`,
`frag_off`, `ttl`, `protocol`, `check`, and the addresses. -/
def ipHeader (p : Packet) : List UInt8 :=
  [0x45, 0] ++ toBe 2 (udpHdrBytes + ipHdrBytes + p.data.length) ++ toBe 2 34567 ++ toBe 2 0 ++
    [0xff, 17] ++ toBe 2 0 ++ toLe 4 p.saddr.toNat ++ toLe 4 p.daddr.toNat

/-- The UDP header up to its checksum. -/
def udpHeader (p : Packet) : List UInt8 :=
  toBe 2 p.source.toNat ++ toBe 2 p.dest.toNat ++ toBe 2 (udpHdrBytes + p.data.length)

def pseudoHeader (p : Packet) : List UInt8 :=
  toLe 4 p.saddr.toNat ++ toLe 4 p.daddr.toNat ++ [0, 17] ++
    toBe 2 (udpHdrBytes + p.data.length)

/-- `PacketGenerate` up to the IP header, over the memory `packet`. -/
def generateIP (shost dhost : Fin 6 → UInt8) (p : Packet) (packet : Buf) : Buf :=
  (packet.put 0 (ethHeader shost dhost)).put etherHdrBytes (ipHeader p)

/-- Its checksum is stored, and the rest is written but the UDP checksum. -/
def generateUDP (shost dhost : Fin 6 → UInt8) (p : Packet) (packet : Buf) : Buf :=
  let packet := generateIP shost dhost p packet
  let check := calIPChecksum (packet.drop etherHdrBytes) ipHdrBytes
  let packet := packet.put (etherHdrBytes + 10) (toLe 2 check.toNat)
  let packet := packet.put (etherHdrBytes + ipHdrBytes) (udpHeader p)
  packet.put (etherHdrBytes + ipHdrBytes + udpHdrBytes) p.data

/-- `PacketGenerate`. -/
def generatePacket (shost dhost : Fin 6 → UInt8) (p : Packet) (packet : Buf) : Buf :=
  let packet := generateUDP shost dhost p packet
  let check := calL4Checksum (packet.drop (etherHdrBytes + ipHdrBytes))
    (udpHdrBytes + p.data.length) (Buf.zero.overlay (pseudoHeader p))
  packet.put (etherHdrBytes + ipHdrBytes + 6) (toLe 2 check.toNat)

/-- The packet that `SendPacket` hands to the socket. -/
def packetFrame (shost dhost : Fin 6 → UInt8) (p : Packet) : Buf :=
  generatePacket shost dhost p Buf.zero

/-! ## The sums are plain sums -/

section Sums

theorem readWord_toNat (buf : Buf) :
    (readWord buf).toNat = (buf 0).toNat + 256 * (buf 1).toNat := by
  have h0 := (buf 0).toNat_lt
  have h1 := (buf 1).toNat_lt
  rw [readWord, UInt16.toNat_ofNat_of_lt']
  simp only [UInt16.size]
  omega

theorem take_two (buf : Buf) (size : Nat) :
    buf.take (size + 2) = buf 0 :: buf 1 :: (buf.drop 2).take size := by
  rw [Nat.add_comm, Buf.take_add]
  rfl

theorem calSumEach16bitLoop_toNat (size : Nat) (buf : Buf) (sum : UInt32) :
    (calSumEach16bitLoop size buf sum).toNat =
      (sum.toNat + (wordsLe (buf.take size)).sum) % 2 ^ 32 := by
  induction size, buf, sum using calSumEach16bitLoop.induct with
  | case1 buf sum =>
      have hlt := sum.toNat_lt
      simp only [calSumEach16bitLoop, Buf.take, List.range_zero, List.map_nil, wordsLe,
        List.sum_nil]
      omega
  | case2 buf sum =>
      have htake : buf.take 1 = [buf 0] := rfl
      rw [calSumEach16bitLoop, htake, UInt32.toNat_add, UInt8.toNat_toUInt32, wordsLe,
        List.sum_singleton]
  | case3 buf sum size ih =>
      rw [calSumEach16bitLoop, ih, take_two, wordsLe, List.sum_cons, UInt32.toNat_add,
        UInt16.toNat_toUInt32, readWord_toNat, Nat.mod_add_mod, Nat.add_assoc]

/-- No sum over a packet overflows, nor any on the way to it. -/
theorem calSumEach16bit_toNat (buf : Buf) (size : Nat) (hsize : size ≤ 2 ^ 17 - 2) :
    (calSumEach16bit buf size).toNat = (wordsLe (buf.take size)).sum := by
  have hle := sum_wordsLe_le (buf.take size)
  rw [Buf.length_take] at hle
  rw [calSumEach16bit, calSumEach16bitLoop_toNat, show (0 : UInt32).toNat = 0 from rfl,
    Nat.zero_add, Nat.mod_eq_of_lt (by omega)]

theorem foldSum_toNat (sum : UInt32) : (foldSum sum).toNat = foldCarry 65536 sum.toNat := by
  have hlt := sum.toNat_lt
  have hmask : sum.toNat &&& 65535 = sum.toNat % 65536 :=
    Nat.and_two_pow_sub_one_eq_mod sum.toNat 16
  have hshift : sum.toNat >>> 16 = sum.toNat / 65536 := Nat.shiftRight_eq_div_pow sum.toNat 16
  rw [foldSum, UInt32.toNat_add, UInt32.toNat_shiftRight, UInt32.toNat_and,
    show (0xffff : UInt32).toNat = 65535 from rfl, show (16 : UInt32).toNat % 32 = 16 from rfl,
    hmask, hshift, foldCarry]
  omega

theorem foldSum_foldSum_lt (sum : UInt32) : (foldSum (foldSum sum)).toNat < 65536 := by
  rw [foldSum_toNat, foldSum_toNat]
  exact foldCarry_foldCarry_lt (by decide) sum.toNat_lt

theorem foldChecksum_toNat (sum : UInt32) :
    (foldChecksum sum).toNat = 65536 - 1 - foldCarry 65536 (foldCarry 65536 sum.toNat) := by
  have hlt := foldSum_foldSum_lt sum
  have hfold : (foldSum (foldSum sum)).toNat = foldCarry 65536 (foldCarry 65536 sum.toNat) := by
    rw [foldSum_toNat, foldSum_toNat]
  rw [← hfold, foldChecksum]
  generalize foldSum (foldSum sum) = folded at hlt
  have hmask : folded.toNat &&& 65535 = folded.toNat :=
    (Nat.and_two_pow_sub_one_eq_mod folded.toNat 16).trans (Nat.mod_eq_of_lt hlt)
  have hand : (folded &&& 0xffff).toNat = folded.toNat := by
    rw [UInt32.toNat_and]
    exact hmask
  have hsize : UInt32.size = 2 ^ 32 := rfl
  rw [UInt32.toNat_toUInt16, UInt32.toNat_not, hand]
  omega

end Sums

/-! ## Storing a checksum -/

section Store

variable {b : Buf} {l : List UInt8} {j k n : Nat}

theorem put_drop (b : Buf) (j k : Nat) (l : List UInt8) :
    (b.put (j + k) l).drop j = (b.drop j).put k l := by
  funext i
  simp only [Buf.drop, Buf.put, Nat.add_le_add_iff_left, Nat.add_assoc, Nat.add_lt_add_iff_left,
    Nat.add_sub_add_left]

theorem put_apart (b : Buf) {i : Nat} (h : i < k ∨ k + l.length ≤ i) : b.put k l i = b i :=
  if_neg (by omega)

theorem take_put_apart (b : Buf) (h : j + n ≤ k ∨ k + l.length ≤ j) :
    ((b.put k l).drop j).take n = (b.drop j).take n :=
  Buf.take_congr fun i hi => put_apart b (by omega)

theorem take_put_self (b : Buf) (k : Nat) (l : List UInt8) :
    ((b.put k l).drop k).take l.length = l := by
  refine List.ext_getElem (by simp) fun i hi hj => ?_
  have hin : k ≤ k + i ∧ k + i < k + l.length := by omega
  simp only [Buf.take, List.getElem_map, List.getElem_range, Buf.drop, Buf.put, if_pos hin,
    Nat.add_sub_cancel_left, List.getD_eq_getElem?_getD, List.getElem?_eq_getElem hj,
    Option.getD_some]

theorem length_toLe (w m : Nat) : (toLe w m).length = w := by simp [toLe]

theorem wordsLe_toLe (c : UInt16) : wordsLe (toLe 2 c.toNat) = [c.toNat] := by
  have hlt := c.toNat_lt
  show [(UInt8.ofNat (c.toNat / 256 ^ 0)).toNat + 256 * (UInt8.ofNat (c.toNat / 256 ^ 1)).toNat] = _
  rw [UInt8.toNat_ofNat', UInt8.toNat_ofNat']
  congr 1
  omega

theorem sum_wordsLe_put {c : UInt16} (hk : k % 2 = 0) (hn : k + 2 ≤ n) (h0 : b k = 0)
    (h1 : b (k + 1) = 0) :
    (wordsLe ((b.put k (toLe 2 c.toNat)).take n)).sum = (wordsLe (b.take n)).sum + c.toNat := by
  obtain ⟨m, rfl⟩ : ∃ m, n = k + (2 + m) := ⟨n - (k + 2), by omega⟩
  have hsplit : ∀ b' : Buf, (wordsLe (b'.take (k + (2 + m)))).sum = (wordsLe (b'.take k)).sum +
      ((wordsLe ((b'.drop k).take 2)).sum + (wordsLe ((b'.drop (k + 2)).take m)).sum) := by
    intro b'
    rw [Buf.take_add, Buf.take_add, Buf.drop_drop,
      wordsLe_append (by rw [Buf.length_take]; exact hk),
      wordsLe_append (by rw [Buf.length_take]), List.sum_append, List.sum_append]
  have hlen := length_toLe 2 c.toNat
  have hfront := take_put_apart b (l := toLe 2 c.toNat) (j := 0) (n := k) (k := k) (by omega)
  have hself := take_put_self b k (toLe 2 c.toNat)
  have hback := take_put_apart b (l := toLe 2 c.toNat) (j := k + 2) (n := m) (k := k) (by omega)
  have hzero : (b.drop k).take 2 = [0, 0] := by
    show [b (k + 0), b (k + 1)] = _
    rw [Nat.add_zero, h0, h1]
  rw [Buf.drop_zero, Buf.drop_zero] at hfront
  rw [hlen] at hself
  rw [hsplit, hsplit, hfront, hself, hback, hzero, wordsLe_toLe]
  simp only [wordsLe, List.sum_cons, List.sum_nil]
  have h00 : (0 : UInt8).toNat = 0 := rfl
  omega

end Store

/-! ## The packet -/

/-- The bytes, an odd one padded with a zero byte, sum to all ones. -/
def ChecksOut (bytes : List UInt8) : Prop := onesSum 65536 (wordsBe bytes) = 0xffff

theorem checksOut_of_sum {bytes : List UInt8} (sum : UInt32)
    (h : (wordsLe bytes).sum = sum.toNat + (foldChecksum sum).toNat) : ChecksOut bytes := by
  rw [foldChecksum_toNat] at h
  have hcomplement := add_complement (B := 65536) (by decide) sum.toNat_lt
  rw [← h] at hcomplement
  exact (onesSum_wordsBe_iff bytes).mpr hcomplement

section Packets

variable (shost dhost : Fin 6 → UInt8) (p : Packet) (packet : Buf)

theorem length_ethHeader : (ethHeader shost dhost).length = etherHdrBytes := by
  simp [ethHeader, etherHdrBytes]

theorem length_ipHeader : (ipHeader p).length = ipHdrBytes := by
  simp [ipHeader, length_toLe, ipHdrBytes]

theorem length_udpHeader : (udpHeader p).length = 6 := by simp [udpHeader]

theorem length_pseudoHeader : (pseudoHeader p).length = pseudoHeaderBytes := by
  simp [pseudoHeader, length_toLe, pseudoHeaderBytes]

theorem generateIP_holds :
    ((generateIP shost dhost p packet).drop etherHdrBytes).Holds (ipHeader p) :=
  Buf.holds_take.mpr (take_put_self _ _ _)

theorem take_ipHeader : ((generatePacket shost dhost p packet).drop etherHdrBytes).take ipHdrBytes =
    (((generateIP shost dhost p packet).drop etherHdrBytes).put 10 (toLe 2
      (calIPChecksum ((generateIP shost dhost p packet).drop etherHdrBytes) ipHdrBytes).toNat)).take
        ipHdrBytes := by
  have h14 : etherHdrBytes = 14 := rfl
  have h20 : ipHdrBytes = 20 := rfl
  have h8 : udpHdrBytes = 8 := rfl
  simp only [generatePacket, generateUDP]
  rw [take_put_apart _ (by omega), take_put_apart _ (by omega), take_put_apart _ (by omega),
    put_drop]

/-- Nothing is written to the field of the UDP checksum before it is stored. -/
theorem generateUDP_check {i : Nat} (h40 : 40 ≤ i) (h42 : i < 42) :
    generateUDP shost dhost p packet i = packet i := by
  have h14 : etherHdrBytes = 14 := rfl
  have h20 : ipHdrBytes = 20 := rfl
  have h8 : udpHdrBytes = 8 := rfl
  have heth := length_ethHeader shost dhost
  have hip := length_ipHeader p
  have hudp := length_udpHeader p
  simp only [generateUDP, generateIP]
  rw [put_apart _ (by omega), put_apart _ (by omega), put_apart _ (by rw [length_toLe]; omega),
    put_apart _ (by omega), put_apart _ (by omega)]

theorem take_udpHeader : ((generatePacket shost dhost p packet).drop
      (etherHdrBytes + ipHdrBytes)).take (udpHdrBytes + p.data.length) =
    (((generateUDP shost dhost p packet).drop (etherHdrBytes + ipHdrBytes)).put 6 (toLe 2
      (calL4Checksum ((generateUDP shost dhost p packet).drop (etherHdrBytes + ipHdrBytes))
        (udpHdrBytes + p.data.length) (Buf.zero.overlay (pseudoHeader p))).toNat)).take
      (udpHdrBytes + p.data.length) := by
  simp only [generatePacket]
  rw [put_drop]

theorem ipHeader_checksOut :
    ChecksOut (((generatePacket shost dhost p packet).drop etherHdrBytes).take ipHdrBytes) := by
  have hholds := generateIP_holds shost dhost p packet
  rw [take_ipHeader]
  generalize (generateIP shost dhost p packet).drop etherHdrBytes = header at hholds
  have hlen := length_ipHeader p
  have h10 : header 10 = 0 := hholds 10 (by rw [hlen]; decide)
  have h11 : header 11 = 0 := hholds 11 (by rw [hlen]; decide)
  refine checksOut_of_sum (calSumEach16bit header ipHdrBytes) ?_
  rw [sum_wordsLe_put (by decide) (by decide) h10 h11, calSumEach16bit_toNat header _ (by decide)]
  rfl

theorem udpHeader_checksOut (hdata : p.data.length < 2 ^ 16) :
    ChecksOut (pseudoHeader p ++ ((packetFrame shost dhost p).drop
      (etherHdrBytes + ipHdrBytes)).take (udpHdrBytes + p.data.length)) := by
  have h8 : udpHdrBytes = 8 := rfl
  have hlen := length_pseudoHeader p
  have h6 : (generateUDP shost dhost p Buf.zero).drop (etherHdrBytes + ipHdrBytes) 6 = 0 :=
    generateUDP_check shost dhost p Buf.zero (by decide) (by decide)
  have h7 : (generateUDP shost dhost p Buf.zero).drop (etherHdrBytes + ipHdrBytes) 7 = 0 :=
    generateUDP_check shost dhost p Buf.zero (by decide) (by decide)
  rw [packetFrame, take_udpHeader]
  generalize (generateUDP shost dhost p Buf.zero).drop (etherHdrBytes + ipHdrBytes) = segment
    at h6 h7
  have hpseudo : (Buf.zero.overlay (pseudoHeader p)).take pseudoHeaderBytes = pseudoHeader p :=
    hlen ▸ Buf.holds_take.mp (Buf.overlay_holds Buf.zero (pseudoHeader p))
  have hfirst := calSumEach16bit_toNat (Buf.zero.overlay (pseudoHeader p)) pseudoHeaderBytes
    (by decide)
  have hsecond := calSumEach16bit_toNat segment (udpHdrBytes + p.data.length) (by omega)
  have hle := sum_wordsLe_le (pseudoHeader p)
  have hle' := sum_wordsLe_le (segment.take (udpHdrBytes + p.data.length))
  rw [hlen, show pseudoHeaderBytes = 12 from rfl] at hle
  rw [Buf.length_take, h8] at hle'
  rw [hpseudo] at hfirst
  refine checksOut_of_sum (calSumEach16bit (Buf.zero.overlay (pseudoHeader p)) pseudoHeaderBytes +
    calSumEach16bit segment (udpHdrBytes + p.data.length)) ?_
  rw [wordsLe_append (by rw [hlen]; rfl), List.sum_append,
    sum_wordsLe_put (by decide) (by omega) h6 h7, UInt32.toNat_add, hfirst, hsecond, h8,
    Nat.mod_eq_of_lt (by omega), calL4Checksum, Nat.add_assoc]

/-- What is right about the checksums of a packet with `dataBytes` bytes of data. -/
structure SoundChecksums (dataBytes : Nat) : Prop where
  ip : ChecksOut (((packetFrame shost dhost p).drop etherHdrBytes).take ipHdrBytes)
  udp : ChecksOut (pseudoHeader p ++ ((packetFrame shost dhost p).drop
    (etherHdrBytes + ipHdrBytes)).take (udpHdrBytes + dataBytes))
  /-- No sum wraps, over whatever bytes, nor does a sum over the first of them. -/
  sums : ∀ (buf : Buf) (size : Nat), size ≤ ipHdrBytes ∨ size ≤ udpHdrBytes + dataBytes →
    (calSumEach16bit buf size).toNat = (wordsLe (buf.take size)).sum
  /-- Nor do the two sums of `CalL4Checksum`. -/
  l4 : ∀ (buf pseudo : Buf) (size : Nat), size ≤ udpHdrBytes + dataBytes →
    (calSumEach16bit pseudo pseudoHeaderBytes + calSumEach16bit buf size).toNat =
      (calSumEach16bit pseudo pseudoHeaderBytes).toNat + (calSumEach16bit buf size).toNat
  folds : ∀ sum : UInt32, (foldSum (foldSum sum)).toNat < 2 ^ 16

/-- Every packet has the right checksums. -/
theorem packet_checksums (hdata : p.data.length < 2 ^ 16) :
    SoundChecksums shost dhost p p.data.length := by
  have h8 : udpHdrBytes = 8 := rfl
  have h12 : pseudoHeaderBytes = 12 := rfl
  have h20 : ipHdrBytes = 20 := rfl
  refine ⟨ipHeader_checksOut shost dhost p Buf.zero, udpHeader_checksOut shost dhost p hdata,
    fun buf size hsize => calSumEach16bit_toNat buf size (by omega),
    fun buf pseudo size hsize => ?_, foldSum_foldSum_lt⟩
  have hle := sum_wordsLe_le (pseudo.take pseudoHeaderBytes)
  have hle' := sum_wordsLe_le (buf.take size)
  rw [Buf.length_take] at hle hle'
  rw [UInt32.toNat_add, calSumEach16bit_toNat pseudo _ (by decide),
    calSumEach16bit_toNat buf size (by omega)]
  exact Nat.mod_eq_of_lt (by omega)

/-- A packet with one byte of data. -/
theorem packet_checksums_odd :
    SoundChecksums (fun _ => 2) (fun _ => 3) ⟨0x0100000a, 12345, 0x0200000a, 12346, [12]⟩ 1 :=
  packet_checksums _ _ ⟨0x0100000a, 12345, 0x0200000a, 12346, [12]⟩ (by decide)

end Packets

end P2PStream
