/-
# `P2PStream.Overlay.Frames` — the network of frames

`SendPacket` writes a frame to a raw socket, and the raw socket of every node reads every
frame on the link.  `Receive` finds the packet again from three fields of the headers, the
protocol number and the UDP length; its buffer is that of the last frame, so what lies behind
the frame is old.

Four facts make the frames a network of packets: the fields are read from where
`PacketGenerate` writes them, a frame is taken by the node it is addressed to alone, what
the handler reads starts with the data of the packet, and no node changes its address.
-/
import P2PStream.Node.Checksum
import P2PStream.Node.Host
import P2PStream.Overlay.Tree

namespace P2PStream

open Lib

/-! ## A frame -/

def maxPacketSize : Nat := 1514

/-- `packet_bytes` of `SendPacket`. -/
def Packet.frameBytes (p : Packet) : Nat :=
  etherHdrBytes + ipHdrBytes + udpHdrBytes + p.data.length

/-- `packet` behind `read( SD , packet , MAX_PACKET_SIZE )`; `stale` is what it held before. -/
def Packet.frame (shost dhost : Fin 6 → UInt8) (p : Packet) (stale : Buf) : Buf :=
  stale.overlay ((packetFrame shost dhost p).take p.frameBytes)

/-- The packet has a protocol number, and its frame fits into `packet`. -/
structure Packet.OnWire (p : Packet) : Prop where
  protocol : p.data ≠ []
  size : p.frameBytes ≤ maxPacketSize

instance (p : Packet) : Decidable p.OnWire :=
  decidable_of_iff (p.data ≠ [] ∧ p.frameBytes ≤ maxPacketSize)
    ⟨fun h => ⟨h.1, h.2⟩, fun h => ⟨h.protocol, h.size⟩⟩

section Frames

variable (shost dhost : Fin 6 → UInt8) (p : Packet) (stale : Buf)

theorem frame_take {k n : Nat} (h : k + n ≤ p.frameBytes) :
    ((p.frame shost dhost stale).drop k).take n = ((packetFrame shost dhost p).drop k).take n := by
  refine Buf.take_congr fun i hi => ?_
  have hlen := Buf.length_take (packetFrame shost dhost p) p.frameBytes
  have hholds := Buf.overlay_holds stale ((packetFrame shost dhost p).take p.frameBytes) (k + i)
    (by omega)
  rw [Buf.drop_apply, Packet.frame, hholds, Buf.drop_apply]
  simp only [Buf.take, List.getElem_map, List.getElem_range]

theorem packetFrame_etherType :
    ((packetFrame shost dhost p).drop 12).take 2 = toBe 2 0x0800 := by
  have h14 : etherHdrBytes = 14 := rfl
  have h20 : ipHdrBytes = 20 := rfl
  have h8 : udpHdrBytes = 8 := rfl
  have hip := length_ipHeader p
  have heth : (Buf.zero.put 0 (ethHeader shost dhost)).Holds (ethHeader shost dhost) := by
    rw [Buf.holds_take]
    exact take_put_self Buf.zero 0 (ethHeader shost dhost)
  have htype := (heth.drop 12 (by rw [length_ethHeader]; decide)).take_eq (n := 2)
    (by rw [List.length_drop, length_ethHeader]; decide)
  simp only [packetFrame, generatePacket, generateUDP, generateIP]
  rw [take_put_apart _ (by omega), take_put_apart _ (by omega), take_put_apart _ (by omega),
    take_put_apart _ (by omega), take_put_apart _ (by omega), htype, ethHeader,
    List.drop_left' (by simp)]
  rfl

theorem packetFrame_addrs : ((packetFrame shost dhost p).drop 26).Holds
    (toLe 4 p.saddr.toNat ++ toLe 4 p.daddr.toNat) := by
  have h14 : etherHdrBytes = 14 := rfl
  have h20 : ipHdrBytes = 20 := rfl
  have h8 : udpHdrBytes = 8 := rfl
  have hholds := (generateIP_holds shost dhost p Buf.zero).drop 12
    (by rw [length_ipHeader]; decide)
  have haddrs : (ipHeader p).drop 12 = toLe 4 p.saddr.toNat ++ toLe 4 p.daddr.toNat := by
    rw [ipHeader, List.append_assoc, List.drop_left' (by simp)]
  have hlen : (toLe 4 p.saddr.toNat ++ toLe 4 p.daddr.toNat).length = 8 := by simp [length_toLe]
  have hcheck := length_toLe 2
    (calIPChecksum ((generateIP shost dhost p Buf.zero).drop etherHdrBytes) ipHdrBytes).toNat
  rw [haddrs, Buf.drop_drop, Buf.holds_take, hlen] at hholds
  rw [Buf.holds_take, hlen]
  simp only [packetFrame, generatePacket, generateUDP]
  rw [take_put_apart _ (by omega), take_put_apart _ (by omega), take_put_apart _ (by omega),
    take_put_apart _ (by omega)]
  exact hholds

theorem packetFrame_udp : ((packetFrame shost dhost p).drop 34).Holds (udpHeader p) := by
  have h14 : etherHdrBytes = 14 := rfl
  have h20 : ipHdrBytes = 20 := rfl
  have h8 : udpHdrBytes = 8 := rfl
  have hlen := length_udpHeader p
  rw [Buf.holds_take, hlen]
  simp only [packetFrame, generatePacket, generateUDP]
  rw [take_put_apart _ (by omega), take_put_apart _ (by omega), ← hlen]
  exact take_put_self _ 34 (udpHeader p)

theorem packetFrame_data : ((packetFrame shost dhost p).drop 42).Holds p.data := by
  have h14 : etherHdrBytes = 14 := rfl
  have h20 : ipHdrBytes = 20 := rfl
  have h8 : udpHdrBytes = 8 := rfl
  rw [Buf.holds_take]
  simp only [packetFrame, generatePacket]
  rw [take_put_apart _ (by rw [length_toLe]; omega)]
  exact take_put_self _ 42 p.data

variable {p}

theorem readU32_toLe {b : Buf} {x : UInt32} {l : List UInt8} (h : b.Holds (toLe 4 x.toNat ++ l)) :
    readU32 b = htonl x := by
  have htake := h.take_eq (n := 4) (by simp [length_toLe])
  rw [List.take_left' (length_toLe 4 x.toNat)] at htake
  rw [readU32, htake, htonl, toLe]

/-- `Receive` finds the fields that `PacketGenerate` wrote. -/
structure FieldsOf (p : Packet) (packet : Buf) : Prop where
  etherType : Frame.etherType packet = ethPIp
  saddr : Frame.saddr packet = p.saddr
  daddr : Frame.daddr packet = p.daddr
  source : Frame.source packet = htons p.source
  dest : Frame.dest packet = p.dest
  dataBytes : Frame.dataBytes packet = UInt16.ofNat p.data.tail.length

theorem frame_fields (h : p.OnWire) : FieldsOf p (p.frame shost dhost stale) := by
  have hbytes : p.frameBytes = 42 + p.data.length := rfl
  have hsize : p.frameBytes ≤ 1514 := h.size
  have hpos := List.length_pos_iff.mpr h.protocol
  have haddrs := packetFrame_addrs shost dhost p
  have hudp := packetFrame_udp shost dhost p
  have hu32 : ∀ k, k + 4 ≤ 42 → readU32 ((p.frame shost dhost stale).drop k) =
      readU32 ((packetFrame shost dhost p).drop k) := by
    intro k hk
    rw [readU32, frame_take shost dhost p stale (by omega), readU32]
  have hu16 : ∀ k, k + 2 ≤ 42 → readU16 ((p.frame shost dhost stale).drop k) =
      readU16 ((packetFrame shost dhost p).drop k) := by
    intro k hk
    rw [readU16, frame_take shost dhost p stale (by omega), readU16]
  have hsecond := (Buf.holds_append.mp haddrs).2
  rw [length_toLe, Buf.drop_drop, ← List.append_nil (toLe 4 p.daddr.toNat)] at hsecond
  obtain ⟨hsource, hrest⟩ := Buf.holds_field (w := 2) (v := p.source.toNat)
    (l := toBe 2 p.dest.toNat ++ toBe 2 (udpHdrBytes + p.data.length))
    (by rw [← List.append_assoc]; exact hudp)
  obtain ⟨hdest, hlast⟩ := Buf.holds_field hrest
  obtain ⟨hlen, -⟩ := Buf.holds_field (l := []) (by rw [List.append_nil]; exact hlast)
  rw [Buf.drop_drop] at hdest hlen
  rw [Buf.drop_drop] at hlen
  refine ⟨?_, ?_, ?_, ?_, ?_, ?_⟩
  · rw [Frame.etherType, hu16 12 (by decide), readU16, packetFrame_etherType]
    rfl
  · rw [Frame.saddr, hu32 26 (by decide), readU32_toLe haddrs, htonl_htonl]
  · rw [Frame.daddr, hu32 30 (by decide), readU32_toLe hsecond, htonl_htonl]
  · rw [Frame.source, hu16 34 (by decide), readU16, hsource, ofNat_ofBe_toBe_u16]
  · rw [Frame.dest, hu16 36 (by decide), readU16, hdest, ofNat_ofBe_toBe_u16]
  · have hu : ofBe (toBe 2 (udpHdrBytes + p.data.length)) = 8 + p.data.length :=
      ofBe_toBe_of_lt (show 8 + p.data.length < 65536 by omega)
    have hnat : (UInt16.ofNat (8 + p.data.length)).toNat = 8 + p.data.length :=
      UInt16.toNat_ofNat_of_lt' (show 8 + p.data.length < 65536 by omega)
    have hdata : ((8 + p.data.length : Nat) : Int) - udpHdrBytes - dataHdrBytes =
        (p.data.length - 1 : Nat) := by
      show ((8 + p.data.length : Nat) : Int) - (8 : Nat) - (1 : Nat) = _
      omega
    have hmod : ((p.data.length - 1 : Nat) : Int) % 2 ^ 16 = (p.data.length - 1 : Nat) :=
      Int.emod_eq_of_lt (by omega) (by omega)
    rw [Frame.dataBytes, Frame.len, hu16 38 (by decide), readU16, hlen, hu, hnat, hdata,
      UInt16.ofInt, hmod, Int.toNat_natCast, List.length_tail]

theorem addressed_frame_iff (h : p.OnWire) (n : Node) :
    Addressed n (p.frame shost dhost stale) ↔ p.daddr = n.srcIp ∧ p.dest = n.srcPort := by
  have hfields := frame_fields shost dhost stale h
  rw [Addressed, hfields.etherType, hfields.daddr, hfields.dest]
  exact ⟨And.right, fun haddr => ⟨rfl, haddr⟩⟩

/-- The handler of a frame gets the packet; behind its data lies what was in the buffer. -/
theorem dispatch_frame (h : p.OnWire) :
    dispatch (p.frame shost dhost stale) = p.event (stale.drop headerBytes) := by
  have hfields := frame_fields shost dhost stale h
  obtain ⟨proto, data, hcons⟩ := List.exists_cons_of_ne_nil h.protocol
  have hbytes : p.frameBytes = 42 + p.data.length := rfl
  have hlen : p.data.length = data.length + 1 := by rw [hcons, List.length_cons]
  have hdata := packetFrame_data shost dhost p
  have hholds : ((p.frame shost dhost stale).drop 42).Holds (proto :: data) := by
    rw [← hcons, Buf.holds_take, frame_take shost dhost p stale (by omega), ← Buf.holds_take]
    exact hdata
  obtain ⟨hproto, hrest⟩ := Buf.holds_cons.mp hholds
  rw [Buf.drop_drop] at hrest
  have hprotocol : Frame.protocol (p.frame shost dhost stale) = proto := hproto
  have hframe : Frame.data (p.frame shost dhost stale) =
      (stale.drop headerBytes).overlay data := by
    funext i
    by_cases hi : i < data.length
    · have hread := hrest i hi
      rw [Buf.overlay_holds (stale.drop headerBytes) data i hi, ← hread]
      rfl
    · rw [Buf.overlay_past _ _ (Nat.le_of_not_lt hi)]
      refine Buf.overlay_past _ _ ?_
      rw [Buf.length_take, hbytes, hlen]
      show 42 + (data.length + 1) ≤ 43 + i
      omega
  rw [dispatch, hprotocol, hframe, hfields.dataBytes, hfields.saddr, hfields.source, Packet.event,
    hcons]
  rfl

end Frames

/-! ## The network -/

instance (n : Node) (packet : Buf) : Decidable (Addressed n packet) :=
  inferInstanceAs (Decidable (_ ∧ _ ∧ _))

/-- One round of the loop of `Receive`, less the streaming of the peer at its end. -/
def receiveFrame (program : Program) (env : Env) (packet : Buf) (n : Node) : Except Fault Node :=
  if Addressed n packet then
    match dispatch packet with
    | some e => n.step program env e
    | none => .ok n
  else
    .ok n

inductive FrameEvent where
  | own (a : Addr) (env : Env) (e : Event)
  /-- `a` reads the frame of packet `k` of those that `b` has sent. -/
  | read (b a : Addr) (env : Env) (k : Nat) (shost dhost : Fin 6 → UInt8) (stale : Buf)
  /-- `a` reads a frame that is not for it, whoever sent it. -/
  | foreign (a : Addr) (env : Env) (packet : Buf)

/-- One step, if it can be taken and stops no process. -/
def frameNext (o : Addr) (s : Addr → Node) : FrameEvent → Option (Addr → Node)
  | .own a env e => do
      let n ← ((s a).step (programAt o a) env e).toOption
      if isOwn e then some (Function.update s a n) else none
  | .read b a env k shost dhost stale => do
      let p ← (s b).sent[k]?
      let n ← (receiveFrame (programAt o a) env (p.frame shost dhost stale) (s a)).toOption
      some (Function.update s a n)
  | .foreign a env packet => do
      let n ← (receiveFrame (programAt o a) env packet (s a)).toOption
      if Addressed (s a) packet then none else some (Function.update s a n)

def FrameStep (o : Addr) (s : Addr → Node) (l : FrameEvent) (t : Addr → Node) : Prop :=
  frameNext o s l = some t

/-- Everyone is at its own address. -/
def AtHome (s : Addr → Node) : Prop := ∀ a, (s a).srcIp = a.1 ∧ (s a).srcPort = a.2

/-- A frame that is read fitted into the buffers. -/
def FramesFit (s : Addr → Node) : FrameEvent → Prop
  | .read b _ _ k _ _ _ => ∀ p, (s b).sent[k]? = some p → p.OnWire
  | _ => True

/-- A packet that is delivered fits into a frame. -/
def PacketsFit (s : Overlay) : OverlayEvent → Prop
  | .deliver b _ _ k _ => ∀ p, (s.node b).sent[k]? = some p → p.OnWire
  | _ => True

section Network

variable {o : Addr}

theorem eq_ok_of_toOption {α : Type _} {x : Except Fault α} {a : α} (h : x.toOption = some a) :
    x = .ok a := by
  cases x with
  | error fault => cases h
  | ok b => exact congrArg Except.ok (Option.some.inj h)

theorem AtHome.update {s : Addr → Node} (h : AtHome s) {a : Addr} {n : Node}
    (hn : n.host = (s a).host) : AtHome (Function.update s a n) := by
  intro b
  by_cases hb : b = a
  · subst hb
    rw [Function.update_self]
    exact ⟨(congrArg Host.srcIp hn).trans (h b).1, (congrArg Host.srcPort hn).trans (h b).2⟩
  · rw [Function.update_of_ne hb]
    exact h b

/-- A node reads the frames to its own address, and of those with a protocol number it knows the
packet is handled. -/
theorem receiveFrame_frame {program : Program} {env : Env} {p : Packet} (h : p.OnWire) {n : Node}
    (shost dhost : Fin 6 → UInt8) (stale : Buf) :
    receiveFrame program env (p.frame shost dhost stale) n =
      if (p.daddr, p.dest) = (n.srcIp, n.srcPort) then
        match p.event (stale.drop headerBytes) with
        | some e => n.step program env e
        | none => .ok n
      else .ok n := by
  have hiff := addressed_frame_iff shost dhost stale h n
  simp only [receiveFrame, hiff, dispatch_frame shost dhost stale h, Prod.mk.injEq]

theorem receiveFrame_speaks {program : Program} {env : Env} {packet : Buf} {n n' : Node}
    (h : receiveFrame program env packet n = .ok n') : Speaks n n' := by
  unfold receiveFrame at h
  split at h
  · split at h
    · exact step_speaks h
    · cases h
      exact .refl n
  · cases h
    exact .refl n

theorem frameStep_speaks {s t : Addr → Node} {l : FrameEvent} (hstep : FrameStep o s l t) :
    ∃ a n, t = Function.update s a n ∧ Speaks (s a) n := by
  cases l with
  | own a env e =>
      simp only [FrameStep, frameNext, Option.bind_eq_bind, Option.bind_eq_some_iff] at hstep
      obtain ⟨n, hn, hstep⟩ := hstep
      split at hstep
      · exact ⟨a, n, (Option.some.inj hstep).symm, step_speaks (eq_ok_of_toOption hn)⟩
      · cases hstep
  | read b a env k shost dhost stale =>
      simp only [FrameStep, frameNext, Option.bind_eq_bind, Option.bind_eq_some_iff] at hstep
      obtain ⟨p, -, n, hn, hstep⟩ := hstep
      exact ⟨a, n, (Option.some.inj hstep).symm, receiveFrame_speaks (eq_ok_of_toOption hn)⟩
  | foreign a env packet =>
      simp only [FrameStep, frameNext, Option.bind_eq_bind, Option.bind_eq_some_iff] at hstep
      obtain ⟨n, hn, hstep⟩ := hstep
      split at hstep
      · cases hstep
      · exact ⟨a, n, (Option.some.inj hstep).symm, receiveFrame_speaks (eq_ok_of_toOption hn)⟩

theorem frameStep_atHome {s t : Addr → Node} {l : FrameEvent} (h : AtHome s)
    (hstep : FrameStep o s l t) : AtHome t := by
  obtain ⟨a, n, rfl, hspeaks⟩ := frameStep_speaks hstep
  exact h.update hspeaks.host

theorem overlayStep_of_frameStep {s t : Addr → Node} {l : FrameEvent} (h : AtHome s)
    (hfit : FramesFit s l) (hstep : FrameStep o s l t) (parent : Addr → Addr) :
    t = s ∨ ∃ l' parent',
      PacketsFit ⟨s, parent⟩ l' ∧ OverlayStep o ⟨s, parent⟩ l' ⟨t, parent'⟩ := by
  cases l with
  | own a env e =>
      simp only [FrameStep, frameNext, Option.bind_eq_bind, Option.bind_eq_some_iff] at hstep
      obtain ⟨n, hn, hstep⟩ := hstep
      split at hstep
      · next hown =>
        obtain rfl := Option.some.inj hstep
        refine .inr ⟨.own a env e, parent, trivial, ?_⟩
        simp only [OverlayStep, Overlay.next, hn, Option.bind_eq_bind, Option.bind_some, hown,
          if_true]
      · cases hstep
  | read b a env k shost dhost stale =>
      simp only [FrameStep, frameNext, Option.bind_eq_bind, Option.bind_eq_some_iff] at hstep
      obtain ⟨p, hp, n, hn, hstep⟩ := hstep
      obtain rfl := Option.some.inj hstep
      have hwire : p.OnWire := hfit p hp
      rw [receiveFrame_frame hwire, (h a).1, (h a).2] at hn
      split at hn
      · next haddr =>
        cases hevent : p.event (stale.drop headerBytes) with
        | none =>
            rw [hevent] at hn
            obtain rfl := Option.some.inj hn
            exact .inl (Function.update_eq_self a s)
        | some e =>
            rw [hevent] at hn
            refine .inr ⟨.deliver b a env k (stale.drop headerBytes),
              ((Overlay.mk s parent).behind o a b e n).parent, hfit, ?_⟩
            have harrives :
                (Overlay.mk s parent).arrives b a k (stale.drop headerBytes) = some e := by
              simp only [Overlay.arrives, hp, Option.bind_eq_bind, Option.bind_some]
              rw [if_pos haddr, hevent]
            simp only [OverlayStep, Overlay.next, harrives, Option.bind_eq_bind, Option.bind_some]
            rw [show ((s a).step (programAt o a) env e).toOption = some n from hn]
            rfl
      · obtain rfl := Option.some.inj hn
        exact .inl (Function.update_eq_self a s)
  | foreign a env packet =>
      simp only [FrameStep, frameNext, Option.bind_eq_bind, Option.bind_eq_some_iff] at hstep
      obtain ⟨n, hn, hstep⟩ := hstep
      split at hstep
      · cases hstep
      · next hother =>
        obtain rfl := Option.some.inj hstep
        rw [receiveFrame, if_neg hother] at hn
        obtain rfl := Option.some.inj hn
        exact .inl (Function.update_eq_self a s)

/-- A packet that is delivered is in a frame that is read; its buffer held `rest` behind the
headers. -/
theorem frameStep_of_overlayStep {u v : Overlay} {l : OverlayEvent} (h : AtHome u.node)
    (hfit : PacketsFit u l) (hstep : OverlayStep o u l v) :
    ∃ l', FramesFit u.node l' ∧ FrameStep o u.node l' v.node := by
  cases l with
  | own a env e =>
      simp only [OverlayStep, Overlay.next, Option.bind_eq_bind, Option.bind_eq_some_iff] at hstep
      obtain ⟨n, hn, hstep⟩ := hstep
      split at hstep
      · next hown =>
        obtain rfl := Option.some.inj hstep
        refine ⟨.own a env e, trivial, ?_⟩
        simp only [FrameStep, frameNext, hn, Option.bind_eq_bind, Option.bind_some, hown, if_true]
      · cases hstep
  | deliver b a env k rest =>
      simp only [OverlayStep, Overlay.next, Option.bind_eq_bind, Option.bind_eq_some_iff] at hstep
      obtain ⟨e, he, n, hn, hstep⟩ := hstep
      obtain rfl := Option.some.inj hstep
      simp only [Overlay.arrives, Option.bind_eq_bind, Option.bind_eq_some_iff] at he
      obtain ⟨p, hp, he⟩ := he
      split at he
      · next haddr =>
        refine ⟨.read b a env k (fun _ => 0) (fun _ => 0) (fun i => rest (i - headerBytes)), hfit,
          ?_⟩
        have hstale : Buf.drop (fun i => rest (i - headerBytes)) headerBytes = rest := by
          funext i
          rw [Buf.drop_apply, Nat.add_sub_cancel_left]
        have hreceive : receiveFrame (programAt o a) env
            (p.frame (fun _ => 0) (fun _ => 0) fun i => rest (i - headerBytes)) (u.node a) =
            (u.node a).step (programAt o a) env e := by
          rw [receiveFrame_frame (hfit p hp), (h a).1, (h a).2, if_pos haddr, hstale, he]
        simp only [FrameStep, frameNext, hp, Option.bind_eq_bind, Option.bind_some, hreceive, hn]
        rfl
      · cases he

/-- The nodes reach the same states over frames as over packets. -/
theorem frames_iff_packets {s t : Addr → Node} (hhome : AtHome s) (parent : Addr → Addr) :
    (∃ ls, Run (Guarded (FrameStep o) FramesFit) s ls t) ↔
      ∃ ls u, Run (Guarded (OverlayStep o) PacketsFit) ⟨s, parent⟩ ls u ∧ u.node = t := by
  constructor
  · rintro ⟨ls, hrun⟩
    have hmatch : ∀ m (u : Overlay) l m', AtHome m ∧ u.node = m →
        Guarded (FrameStep o) FramesFit m l m' →
        ∃ ls' u', Run (Guarded (OverlayStep o) PacketsFit) u ls' u' ∧ AtHome m' ∧ u'.node = m' := by
      rintro m u l m' ⟨hm, rfl⟩ ⟨hfit, hstep⟩
      have hm' := frameStep_atHome hm hstep
      rcases overlayStep_of_frameStep hm hfit hstep u.parent with
        hsame | ⟨l', parent', hfit', hnext⟩
      · exact ⟨[], u, .nil u, hm', hsame.symm⟩
      · exact ⟨[l'], ⟨m', parent'⟩, .cons ⟨hfit', hnext⟩ (.nil _), hm', rfl⟩
    have hstart : AtHome s ∧ (Overlay.mk s parent).node = s := ⟨hhome, rfl⟩
    obtain ⟨ls', u, hrun', -, hu⟩ := hrun.simulation hmatch hstart
    exact ⟨ls', u, hrun', hu⟩
  · rintro ⟨ls, u, hrun, rfl⟩
    have hmatch : ∀ (u : Overlay) m l (v : Overlay), AtHome m ∧ u.node = m →
        Guarded (OverlayStep o) PacketsFit u l v →
        ∃ ls' m', Run (Guarded (FrameStep o) FramesFit) m ls' m' ∧ AtHome m' ∧ v.node = m' := by
      rintro u m l v ⟨hm, rfl⟩ ⟨hfit, hstep⟩
      obtain ⟨l', hfit', hnext⟩ := frameStep_of_overlayStep hm hfit hstep
      exact ⟨[l'], v.node, .cons ⟨hfit', hnext⟩ (.nil _), frameStep_atHome hm hnext, rfl⟩
    obtain ⟨ls', m, hrun', -, hm⟩ := hrun.simulation hmatch ⟨hhome, rfl⟩
    exact ⟨ls', hm ▸ hrun'⟩

/-! ## Who is answered -/

/-- What everyone has sent bears its own address. -/
def Signed (s : Addr → Node) : Prop := ∀ a, ∀ p ∈ (s a).sent, (p.saddr, p.source) = a

/-- The packet goes to the address. -/
def Packet.To (a : Addr) (p : Packet) : Prop := (p.daddr, p.dest) = a

/-- A Setup that is read is answered to the node that sent it, whatever it says of itself. -/
def SetupAnswered (s : Addr → Node) (l : FrameEvent) (t : Addr → Node) : Prop :=
  ∀ b a env k shost dhost stale p, l = .read b a env k shost dhost stale →
    (s b).sent[k]? = some p → p.data.head? = some setupProto →
    Sends (Packet.To b) (s a) (t a)

theorem htons_htons (x : UInt16) : htons (htons x) = x := by
  have hlen : (toBe 2 x.toNat).reverse.length = 2 := by simp
  have hlt : ofBe (toBe 2 x.toNat).reverse < UInt16.size := by
    have := ofBe_lt (toBe 2 x.toNat).reverse
    rwa [hlen] at this
  have hbytes : toBe 2 (htons x).toNat = (toBe 2 x.toNat).reverse := by
    rw [htons, UInt16.toNat_ofNat_of_lt' hlt]
    have hback := toBe_ofBe (toBe 2 x.toNat).reverse
    rwa [hlen] at hback
  rw [htons, hbytes, List.reverse_reverse, ofBe_toBe_of_lt x.toNat_lt, UInt16.ofNat_toNat]

/-- A slot that leads to the address. -/
def Node.Routes (n : Node) (s : Slot) (a : Addr) : Prop := (n.dstIp s, n.dstPort s) = a

theorem renewDstIPandMAC_routes (ip : UInt32) (port : UInt16) (s : Slot) (n : Node) :
    (renewDstIPandMAC ip port s n).Routes s (ip, port) := by
  have hip : (renewDstIPandMAC ip port s n).dstIp s = ip := Function.update_self ..
  have hport : (renewDstIPandMAC ip port s n).dstPort s = port := Function.update_self ..
  rw [Node.Routes, hip, hport]

theorem sendData_sends {n : Node} {s : Slot} {a : Addr} (h : n.Routes s a) (l : List UInt8)
    (dataBytes : Int) : Sends (Packet.To a) n (sendData l dataBytes s n) := .one rfl h

/-- The Advertise, or the InitialStatus and the WebM header, go to the address in the headers. -/
theorem nodeSetup_sends {env : Env} {data : Buf} {saddr : UInt32} {source : UInt16} {n n' : Node}
    (h : nodeSetup env data saddr source n = .ok n') :
    Sends (Packet.To (saddr, htons source)) n n' := by
  rcases nodeSetup_cases h with ⟨-, ad, rfl⟩ | ⟨-, i, -, rfl⟩
  · have hroute := renewDstIPandMAC_routes saddr (htons source) tmpId n
    exact (Sends.none rfl).trans (sendData_sends hroute _ _)
  · let child := setupChild data saddr (htons source) i
      (renewDstIPandMAC saddr (htons source) (childSlot i) n)
    have hroute : child.Routes (childSlot i) (saddr, htons source) :=
      renewDstIPandMAC_routes saddr (htons source) (childSlot i) n
    have hchild : Sends (Packet.To (saddr, htons source)) n child := .none rfl
    have hstatus : Sends (Packet.To (saddr, htons source)) child
        (sendInitialStatus (childSlot i) child) := sendData_sends hroute _ _
    have hheader : Sends (Packet.To (saddr, htons source)) (sendInitialStatus (childSlot i) child)
        (sendWebMHeader (childSlot i) (sendInitialStatus (childSlot i) child)) :=
      sendData_sends (n := sendInitialStatus (childSlot i) child) hroute _ _
    exact ((hchild.trans hstatus).trans hheader).trans (.none rfl)

theorem receiveSetup_sends (program : Program) (k : UInt16) (saddr : UInt32) (source : UInt16)
    (n : Node) :
    Sends (Packet.To (saddr, htons source)) n (receiveSetup program k saddr source n) := by
  unfold receiveSetup
  split
  · split
    · have hroute := renewDstIPandMAC_routes saddr (htons source) tmpId
        { n with currentNodeId := n.currentNodeId + 1 }
      exact (Sends.none rfl).trans (sendData_sends hroute _ _)
    · exact .none rfl
  · exact .none rfl

theorem Signed.update {s : Addr → Node} (h : Signed s) (hhome : AtHome s) {a : Addr} {n : Node}
    (hn : Speaks (s a) n) : Signed (Function.update s a n) := by
  intro b p hp
  by_cases hb : b = a
  · subst hb
    rw [Function.update_self] at hp
    obtain ⟨new, hsent, hnew⟩ := hn.sends
    rw [hsent] at hp
    rcases List.mem_append.mp hp with hold | hin
    · exact h b p hold
    · exact Prod.ext ((hnew p hin).1.trans (hhome b).1) ((hnew p hin).2.trans (hhome b).2)
  · rw [Function.update_of_ne hb] at hp
    exact h b p hp

theorem setupAnswered_step {s t : Addr → Node} {l : FrameEvent} (hsigned : Signed s)
    (hfit : FramesFit s l) (hstep : FrameStep o s l t) : SetupAnswered s l t := by
  rintro b a env k shost dhost stale p rfl hp hproto
  simp only [FrameStep, frameNext, hp, Option.bind_eq_bind, Option.bind_some,
    Option.bind_eq_some_iff] at hstep
  obtain ⟨n, hn, hstep⟩ := hstep
  obtain rfl := Option.some.inj hstep
  rw [Function.update_self]
  have hreceive := eq_ok_of_toOption hn
  rw [receiveFrame_frame (hfit p hp)] at hreceive
  split at hreceive
  · have hfrom : (p.saddr, p.source) = b := hsigned b p (List.mem_of_getElem? hp)
    have hevent : p.event (stale.drop headerBytes) = some (.setup
        ((stale.drop headerBytes).overlay p.data.tail) (UInt16.ofNat p.data.tail.length) p.saddr
        (htons p.source)) := by
      rw [Packet.event, hproto]
      rfl
    rw [hevent] at hreceive
    have hsends := (receiveSetup_sends (programAt o a) (UInt16.ofNat p.data.tail.length) p.saddr
      (htons p.source) (s a)).trans (nodeSetup_sends hreceive)
    rwa [htons_htons, hfrom] at hsends
  · cases hreceive
    exact .none rfl

theorem Started.sent_from {program : Program} {n : Node} (h : Started program n) :
    ∀ p ∈ n.sent, p.From n.host := by
  cases h with
  | origin srcIp file start blocks current prev => exact fun p hp => absurd hp List.not_mem_nil
  | peer env srcIp originIp srcPort start blocks =>
      have hspeaks : Speaks (Node.boot srcIp srcPort [] start blocks)
          (peerStart env srcIp originIp srcPort start blocks) := by
        simp only [peerStart]
        exact (sendSetup_talks _).speaks.behind rfl rfl
      obtain ⟨new, hsent, hnew⟩ := hspeaks.sends
      intro p hp
      rw [hsent] at hp
      rw [hspeaks.host]
      exact hnew p ((List.mem_append.mp hp).resolve_left List.not_mem_nil)

theorem signed_of_started {s : Addr → Node} (hstart : ∀ a, Started (programAt o a) (s a))
    (hhome : AtHome s) : Signed s := by
  intro a p hp
  obtain ⟨hip, hport⟩ := (hstart a).sent_from p hp
  exact Prod.ext (hip.trans (hhome a).1) (hport.trans (hhome a).2)

/-- In every run over frames, what a node sends for a Setup goes to the node that sent it. -/
theorem setups_answered {s t : Addr → Node} {ls : List FrameEvent}
    (hstart : ∀ a, Started (programAt o a) (s a)) (hhome : AtHome s)
    (hrun : Run (Guarded (FrameStep o) FramesFit) s ls t) :
    Run (Safe (FrameStep o) SetupAnswered) s ls t := by
  have hkeep : ∀ s l t, AtHome s ∧ Signed s → FramesFit s l → FrameStep o s l t →
      (AtHome t ∧ Signed t) ∧ SetupAnswered s l t := by
    rintro s l t ⟨hhome, hsigned⟩ hfit hstep
    refine ⟨⟨frameStep_atHome hhome hstep, ?_⟩, setupAnswered_step hsigned hfit hstep⟩
    obtain ⟨a, n, rfl, hspeaks⟩ := frameStep_speaks hstep
    exact hsigned.update hhome hspeaks
  exact hrun.safe_of_guarded hkeep ⟨hhome, signed_of_started hstart hhome⟩

end Network

/-! ## A node that joins -/

theorem treeStart_atHome : AtHome treeStart.node := by
  intro a
  by_cases ha : a = originAddr
  · subst ha
    exact ⟨rfl, rfl⟩
  · simp only [treeStart, if_neg ha]
    exact ⟨rfl, rfl⟩

theorem packetsFit_of_all {s : Overlay} {b a : Addr} {env : Env} {k : Nat} {rest : Buf}
    (h : (s.node b).sent[k]?.all (fun p => decide p.OnWire) = true) :
    PacketsFit s (.deliver b a env k rest) := by
  intro p hp
  rw [hp] at h
  exact of_decide_eq_true h

theorem framesFit_of_all {s : Addr → Node} {b a : Addr} {env : Env} {k : Nat}
    {shost dhost : Fin 6 → UInt8} {stale : Buf}
    (h : (s b).sent[k]?.all (fun p => decide p.OnWire) = true) :
    FramesFit s (.read b a env k shost dhost stale) := by
  intro p hp
  rw [hp] at h
  exact of_decide_eq_true h

/-- The peer joins over frames too. -/
theorem frames_iff_packets_join : ∃ t, (∃ ls,
    Run (Guarded (FrameStep originAddr) FramesFit) treeStart.node ls t) ∧
      (t addr2).isConnected parentId = true := by
  let full := treeStart.after originAddr (ownAt 1 originAddr .timeCache)
  let admitting := full.after originAddr (deliverAt 2 addr2 originAddr 0)
  let joined := admitting.after originAddr (deliverAt 3 originAddr addr2 1)
  have hfull : OverlayStep originAddr treeStart _ full := Overlay.after_step (by decide +kernel)
  have hadmitting : OverlayStep originAddr full _ admitting :=
    Overlay.after_step (by decide +kernel)
  have hjoined : OverlayStep originAddr admitting _ joined := Overlay.after_step (by decide +kernel)
  have hsetup : PacketsFit full (deliverAt 2 addr2 originAddr 0) :=
    packetsFit_of_all (by decide +kernel)
  have hstatus : PacketsFit admitting (deliverAt 3 originAddr addr2 1) :=
    packetsFit_of_all (by decide +kernel)
  have hrun : Run (Guarded (OverlayStep originAddr) PacketsFit) treeStart joinMoves joined :=
    .cons ⟨trivial, hfull⟩ <| .cons ⟨hsetup, hadmitting⟩ <| .cons ⟨hstatus, hjoined⟩ <| .nil _
  refine ⟨joined.node, (frames_iff_packets treeStart_atHome treeStart.parent).mpr
    ⟨joinMoves, joined, hrun, rfl⟩, ?_⟩
  decide +kernel

/-- The step behind a frame event, if it can be taken. -/
def frameAfter (o : Addr) (s : Addr → Node) (l : FrameEvent) : Addr → Node :=
  (frameNext o s l).getD s

theorem frameAfter_step {o : Addr} {s : Addr → Node} {l : FrameEvent}
    (h : (frameNext o s l).isSome = true) : FrameStep o s l (frameAfter o s l) := by
  obtain ⟨t, ht⟩ := Option.isSome_iff_exists.mp h
  rw [FrameStep, frameAfter, ht]
  rfl

/-- The origin reads the first Setup. -/
def readSetup : FrameEvent :=
  .read addr2 originAddr (Env.clock ⟨2, 0⟩) 0 (fun _ => 2) (fun _ => 1) Buf.zero

/-- An ID and an Advertise, since its cache is not full yet. -/
theorem setups_answered_join : ∃ t,
    Run (Safe (FrameStep originAddr) SetupAnswered) treeStart.node [readSetup] t ∧
      (t originAddr).sent.length = 2 := by
  have hread : FrameStep originAddr treeStart.node readSetup
      (frameAfter originAddr treeStart.node readSetup) := frameAfter_step (by decide +kernel)
  have hfit : FramesFit treeStart.node readSetup := framesFit_of_all (by decide +kernel)
  refine ⟨_, setups_answered treeStart_start treeStart_atHome (.cons ⟨hfit, hread⟩ (.nil _)), ?_⟩
  decide +kernel

end P2PStream
