/-
# `P2PStream.Node.Host` — the address that a node speaks from

`SRC_IP` and `SRC_PORT` are set before the threads start, `START_TIMESTAMP` by
`TimeProcess` before its loop, and none of them again.  `PacketGenerate` puts the first
two into every packet, so what a node has sent bears its address, whatever the run.
-/
import P2PStream.Node.Address

namespace P2PStream

open Lib

/-- What is set once. -/
structure Host where
  srcIp : UInt32
  srcPort : UInt16
  startTimestamp : Timeval
  deriving DecidableEq

def Node.host (n : Node) : Host := ⟨n.srcIp, n.srcPort, n.startTimestamp⟩

/-- The packet bears the address of the host. -/
def Packet.From (h : Host) (p : Packet) : Prop := p.saddr = h.srcIp ∧ p.source = h.srcPort

/-- The host is the same, and what was sent is from it. -/
structure Speaks (n n' : Node) : Prop where
  host : n'.host = n.host
  sends : Sends (Packet.From n.host) n n'

theorem Speaks.none {n n' : Node} (hhost : n'.host = n.host) (hsent : n'.sent = n.sent) :
    Speaks n n' := ⟨hhost, .none hsent⟩

theorem Speaks.refl (n : Node) : Speaks n n := .none rfl rfl

theorem Speaks.trans {n₁ n₂ n₃ : Node} (h : Speaks n₁ n₂) (h' : Speaks n₂ n₃) : Speaks n₁ n₃ :=
  ⟨h'.host.trans h.host, h.sends.trans (h.host ▸ h'.sends)⟩

theorem Speaks.behind {n m n' : Node} (h : Speaks m n') (hhost : m.host = n.host)
    (hsent : m.sent = n.sent) : Speaks n n' := (Speaks.none hhost hsent).trans h

/-! ## Sending -/

theorem sendPacket_speaks (data : List UInt8) (s : Slot) (n : Node) :
    Speaks n (sendPacket data s n) := ⟨rfl, .one rfl ⟨rfl, rfl⟩⟩

theorem sendData_speaks (l : List UInt8) (dataBytes : Int) (s : Slot) (n : Node) :
    Speaks n (sendData l dataBytes s n) := sendPacket_speaks _ s n

theorem Talks.speaks {n n' : Node} (h : Talks n n') : Speaks n n' := by
  obtain ⟨ip, port, ps, rfl, hps⟩ := h
  exact ⟨rfl, ps, rfl, fun p hp => ⟨(hps p hp).saddr, (hps p hp).source⟩⟩

theorem Distributes.speaks {n n' : Node} (h : Distributes n n') : Speaks n n' := by
  obtain ⟨x, y, blocks, ps, rfl, hps⟩ := h
  refine ⟨rfl, ps, rfl, fun p hp => ?_⟩
  obtain ⟨i, data, -, rfl, -⟩ := hps p hp
  exact ⟨rfl, rfl⟩

theorem sendID_speaks (ip : UInt32) (port : UInt16) (n : Node) : Speaks n (sendID ip port n) :=
  (sendData_speaks _ _ tmpId _).behind rfl rfl

theorem sendInitialStatus_speaks (s : Slot) (n : Node) : Speaks n (sendInitialStatus s n) :=
  sendData_speaks _ _ s n

theorem sendWebMHeader_speaks (s : Slot) (n : Node) : Speaks n (sendWebMHeader s n) :=
  sendData_speaks _ _ s n

theorem sendAccept_speaks (s : Slot) (n : Node) : Speaks n (sendAccept s n) :=
  sendData_speaks _ _ s n

/-! ## The handlers -/

theorem nodeRetry_speaks {env : Env} {n n' : Node} (h : nodeRetry env n = .ok n') :
    Speaks n n' := by
  obtain ⟨prior, _, _, -, -, rfl⟩ := nodeRetry_asks h
  exact (connectTo_talks prior _).speaks.behind rfl rfl

theorem admitChild_speaks (env : Env) (i : Fin maxChildNum) (n : Node) :
    Speaks n (admitChild env i n) := .none rfl rfl

theorem receiveSetup_speaks (program : Program) (k : UInt16) (saddr : UInt32) (source : UInt16)
    (n : Node) : Speaks n (receiveSetup program k saddr source n) := by
  unfold receiveSetup
  split
  · split
    · exact sendID_speaks saddr source n
    · exact .refl n
  · exact .refl n

theorem nodeSetup_speaks {env : Env} {data : Buf} {saddr : UInt32} {source : UInt16} {n n' : Node}
    (h : nodeSetup env data saddr source n = .ok n') : Speaks n n' := by
  rcases nodeSetup_cases h with ⟨-, ad, rfl⟩ | ⟨-, i, -, rfl⟩
  · exact (sendAdvertise_talks env saddr (htons source) ad n).speaks
  · have hchild : Speaks n (setupChild data saddr (htons source) i
        (renewDstIPandMAC saddr (htons source) (childSlot i) n)) := .none rfl rfl
    have hstatus := hchild.trans (sendInitialStatus_speaks (childSlot i) _)
    have hheader := hstatus.trans (sendWebMHeader_speaks (childSlot i) _)
    exact hheader.trans (admitChild_speaks env i _)

theorem nodeConnect_speaks {env : Env} {data : Buf} {n n' : Node}
    (h : nodeConnect env data n = .ok n') : Speaks n n' := by
  rcases nodeConnect_cases h with ⟨-, hsame | hunaccept⟩ | ⟨-, i, -, rfl⟩
  · rw [hsame]
    exact .refl n
  · rw [hunaccept]
    exact (sendUnaccept_talks _ _ n).speaks
  · have hchild : Speaks n (connectChild data i (renewDstIPandMAC
        (htonl (readLink data).ipaddr) (readLink data).port (childSlot i) n)) := .none rfl rfl
    exact (hchild.trans (sendAccept_speaks (childSlot i) _)).trans (admitChild_speaks env i _)

/-! ## Every step -/

theorem step_speaks {program : Program} {env : Env} {n n' : Node} {e : Event}
    (h : n.step program env e = .ok n') : Speaks n n' := by
  cases e with
  | setup data k saddr source =>
      exact (receiveSetup_speaks program k saddr source n).trans (nodeSetup_speaks h)
  | id data => cases program <;> cases h <;> exact .none rfl rfl
  | initialStatus data k => cases h; exact .none rfl rfl
  | advertise data k =>
      cases h
      exact (nodeAdvertise_talks env data k n).speaks.behind rfl rfl
  | block data k =>
      cases program with
      | origin => cases h; exact .refl n
      | peer =>
          obtain ⟨webm, -, h⟩ := bind_eq_ok.mp h
          cases h
          exact .none rfl rfl
  | connect data => exact nodeConnect_speaks h
  | depart data =>
      obtain ⟨count, connected, htalks⟩ := nodeDepart_talks h
      exact htalks.speaks.behind rfl rfl
  | detach data =>
      obtain ⟨prior, _, -, rfl⟩ := nodeDetach_asks h
      exact (connectTo_talks prior _).speaks.behind rfl rfl
  | reqList data => cases h; exact (nodeReqList_talks data n).speaks
  | resList data k => cases program <;> cases h <;> exact .none rfl rfl
  | accept data =>
      cases program with
      | origin => cases h; exact .refl n
      | peer =>
          cases h
          obtain ⟨_, _, _, hafter, -⟩ := nodeAccept_changes env data n
          rw [hafter]
          exact .none rfl rfl
  | unaccept data =>
      cases program with
      | origin => cases h; exact .refl n
      | peer =>
          obtain ⟨prior, _, _, -, -, rfl⟩ := nodeUnaccept_asks h
          exact (connectTo_talks prior _).speaks.behind rfl rfl
  | keepAlive data => cases h; exact (nodeKeepAlive_talks data n).speaks
  | keepAliveRes data => cases h; exact .none rfl rfl
  | mulStream => exact (step_mulStream_distributes h).speaks
  | timeKeepAlive => cases h; exact (timeKeepAlive_talks env n).speaks.behind rfl rfl
  | timeSetup => cases h; exact (timeSetup_talks env n).speaks.behind rfl rfl
  | timeout s =>
      rcases timeout_cases h with ⟨-, rfl⟩ | ⟨-, ⟨-, rfl⟩ | ⟨-, hretry⟩⟩
      · exact .refl n'
      · exact .none rfl rfl
      · exact (nodeRetry_speaks hretry).behind rfl rfl
  | timeList => cases h; exact (timeList_talks env n).speaks.behind rfl rfl
  | timeRetry =>
      rcases timeRetry_cases h with ⟨-, hretry⟩ | ⟨-, rfl⟩
      · exact nodeRetry_speaks hretry
      · exact .refl n'
  | timeCache =>
      cases h
      obtain ⟨_, _, _, _, _, _, hafter⟩ := timeCache_changes env n
      rw [hafter]
      exact .none rfl rfl
  | timeDepart => cases h; exact (timeDepart_talks env n).speaks.behind rfl rfl
  | main webm => cases h; exact .none rfl rfl

end P2PStream
