/-
# `P2PStream.Node.Fits` — messages and the array they are built in

Every message is built in a local array of `MAX_DATA_BYTES`.  Two functions write as much
as there is.  `SendResList` writes the children and the node list, which grows by every id
that other nodes name.  `SendWebMHeader` writes the header that
`UpdateWebMHeaderFromWebM` found; it looked for it in 1024 bytes, and there is room for
1000.
-/
import P2PStream.Node.NodesList
import P2PStream.Node.ResList
import P2PStream.Webm.Header

namespace P2PStream

open Lib

/-! ## What is written -/

/-- One behind the last byte that `SendResList` writes. -/
def resListWritten (dst : Slot) (n : Node) : Nat :=
  (resListProto :: (resListCopied dst n).flatMap copyNodeStatusToBytes).length

/-- One behind the last byte that `SendWebMHeader` writes. -/
def headerWritten (n : Node) : Nat := blockinfoBytes + 1 + n.webm.webmHeaderTotalBytes.toNat

/-- What is written, and the length that `SendPacket` is given, stay in the array. -/
structure Fits (written : Nat) (n' : Node) : Prop where
  written : written ≤ maxDataBytes
  sent : (lastData n').length ≤ maxDataBytes

theorem toNat_ofInt (k : Int) : ((UInt16.ofInt k).toNat : Int) = k % 2 ^ 16 := by
  have hpos := Int.emod_nonneg k (show (2 ^ 16 : Int) ≠ 0 by decide)
  have hlt := Int.emod_lt_of_pos k (show (0 : Int) < 2 ^ 16 by decide)
  rw [UInt16.ofInt, UInt16.toNat_ofNat_of_lt' (by simp only [UInt16.size]; omega),
    Int.toNat_of_nonneg hpos]

/-- An answer to a list request fits when it has at most 33 records, and the length that is
computed apart from them does. -/
theorem sendResList_fits_iff (dst : Slot) (n : Node) :
    Fits (resListWritten dst n) (sendResList dst n) ↔
      (resListCopied dst n).length ≤ 33 ∧ (1 + 30 * resListNum dst n) % 2 ^ 16 ≤ 1019 := by
  have hwritten : resListWritten dst n = 30 * (resListCopied dst n).length + 1 := by
    rw [resListWritten, List.length_cons, length_flatMap_copyNodeStatusToBytes]
    rfl
  have hsent : ((lastData (sendResList dst n)).length : Int) =
      (1 + 30 * resListNum dst n) % 2 ^ 16 := by
    rw [sendResList_eq, lastData_eq_take, Buf.length_take, toNat_ofInt]
    rfl
  have hmax : maxDataBytes = 1019 := rfl
  constructor
  · rintro ⟨hbytes, hlength⟩
    exact ⟨by omega, by omega⟩
  · rintro ⟨hbytes, hlength⟩
    exact ⟨by omega, by omega⟩

theorem sendWebMHeader_fits_iff (s : Slot) (n : Node) :
    Fits (headerWritten n) (sendWebMHeader s n) ↔ n.webm.webmHeaderTotalBytes.toNat ≤ 1000 := by
  have hwritten : headerWritten n = n.webm.webmHeaderTotalBytes.toNat + 19 := by
    rw [headerWritten, Nat.add_comm]
    rfl
  have hsent : ((lastData (sendWebMHeader s n)).length : Int) =
      ((n.webm.webmHeaderTotalBytes.toNat : Int) + 18 + 1) % 2 ^ 16 := by
    rw [sendWebMHeader, lastData_eq_take, Buf.length_take, toNat_ofInt]
    rfl
  have hmax : maxDataBytes = 1019 := rfl
  constructor
  · rintro ⟨hbytes, -⟩
    omega
  · intro hheader
    exact ⟨by omega, by omega⟩

/-- In a node that counts its children right, the length is right for a child, and for the parent
when there is anything to send. -/
theorem resListNum_fits_iff {n : Node} (hcount : n.links.Counted) {dst : Slot} (hslot : dst ≠ myId)
    (hdst : n.isConnected dst = true) (hsize : (resListCopied dst n).length ≤ 33) :
    (1 + 30 * resListNum dst n) % 2 ^ 16 ≤ 1019 ↔
      (dst = parentId → (resListCopied dst n).length ≠ 0) := by
  rw [resListNum_eq hcount hslot hdst]
  by_cases hparent : dst = parentId
  · rw [if_pos hparent]
    by_cases hnone : (resListCopied dst n).length = 0
    · rw [hnone]
      exact iff_of_false (by decide) fun h => h hparent rfl
    · refine iff_of_true ?_ fun _ => hnone
      rw [Int.emod_eq_of_lt (by omega) (by omega)]
      omega
  · rw [if_neg hparent, Int.sub_zero]
    refine iff_of_true ?_ fun h => absurd h hparent
    rw [Int.emod_eq_of_lt (by omega) (by omega)]
    omega

/-! ## How long the list is -/

/-- The ids of the records that the messages of a run wrote to the list. -/
def writtenIds (ls : List (Env × Event)) : List UInt16 :=
  ls.flatMap fun l => (listWrites l.2).map fun w => w.record.id

/-- A peer lists as many nodes as were named to it, the origin among them: there is no bound. -/
theorem length_nodesList {env : Env} {srcIp originIp : UInt32} {srcPort : UInt16}
    {start : Timeval} {blocks : Fin maxChildNum → Block} {ls : List (Env × Event)} {n : Node}
    (hrun : Run (NodeStep .peer) (peerStart env srcIp originIp srcPort start blocks) ls n) :
    n.nodesList.length = (insert originId (writtenIds ls).toFinset).card := by
  have hlist := run_nodesList_peerStart hrun
  have hnodup : (n.nodesList.map (·.id)).Nodup := by
    rw [hlist]
    exact nodup_writeAll_nil _
  have hids : (n.nodesList.map (·.id)).toFinset = insert originId (writtenIds ls).toFinset := by
    ext id
    rw [List.mem_toFinset, hlist, mem_keys_writeAll, runWrites, Finset.mem_insert,
      List.mem_toFinset, writtenIds]
    simp only [List.map_nil, List.not_mem_nil, false_or, List.mem_cons, List.mem_flatMap,
      List.mem_map]
    constructor
    · rintro ⟨w, rfl | ⟨l, hl, hw⟩, rfl⟩
      · exact .inl rfl
      · exact .inr ⟨l, hl, w, hw, rfl⟩
    · rintro (rfl | ⟨l, hl, w, hw, rfl⟩)
      · exact ⟨_, .inl rfl, rfl⟩
      · exact ⟨w, .inr ⟨l, hl, hw⟩, rfl⟩
  rw [← hids, List.toFinset_card_of_nodup hnodup, List.length_map]

/-! ## Runs -/

/-- The node with which `NodeSetup` calls `SendWebMHeader`. -/
def setupAdmitted (data : Buf) (saddr : UInt32) (source : UInt16) (i : Fin maxChildNum)
    (n : Node) : Node :=
  sendInitialStatus (childSlot i) (setupChild data saddr (htons source) i
    (renewDstIPandMAC saddr (htons source) (childSlot i) n))

theorem setupAdmitted_header (data : Buf) (saddr : UInt32) (source : UInt16) (i : Fin maxChildNum)
    (n : Node) : (setupAdmitted data saddr source i n).webm.webmHeaderTotalBytes =
      n.webm.webmHeaderTotalBytes := rfl

/-- What an event lets `SendResList` and `SendWebMHeader` write fits. -/
def MessagesFit (program : Program) (n : Node) (l : Env × Event) : Prop :=
  match l.2 with
  | .reqList data => ∀ dst, requester (readU16 data) n = some dst →
      Fits (resListWritten dst n) (sendResList dst n)
  | .setup data k saddr source => ∀ i, AdmitsSetup l.1 n → checkChildNum n = some i →
      let m := setupAdmitted data saddr source i (receiveSetup program k saddr source n)
      Fits (headerWritten m) (sendWebMHeader (childSlot i) m)
  | _ => True

/-- A list request finds at most 33 records to send and a count that fits, and a node that is
admitted finds a header of at most 1000 bytes. -/
def FitGuard (n : Node) (l : Env × Event) : Prop :=
  match l.2 with
  | .reqList data => ∀ dst, requester (readU16 data) n = some dst →
      (resListCopied dst n).length ≤ 33 ∧ (1 + 30 * resListNum dst n) % 2 ^ 16 ≤ 1019
  | .setup _ _ _ _ => AdmitsSetup l.1 n → n.webm.webmHeaderTotalBytes.toNat ≤ 1000
  | _ => True

theorem messagesFit_iff (program : Program) (n : Node) (l : Env × Event) :
    MessagesFit program n l ↔ FitGuard n l := by
  obtain ⟨env, e⟩ := l
  cases e with
  | reqList data =>
      exact forall_congr' fun dst => imp_congr_right fun _ => sendResList_fits_iff dst n
  | setup data k saddr source =>
      have hfits : ∀ i, _ ↔ _ := fun i => sendWebMHeader_fits_iff (childSlot i)
        (setupAdmitted data saddr source i (receiveSetup program k saddr source n))
      simp only [setupAdmitted_header, receiveSetup_webm] at hfits
      constructor
      · intro h hadm
        obtain ⟨i, hi⟩ := Option.ne_none_iff_exists'.mp hadm.2.2
        exact (hfits i).mp (h i hadm hi)
      · exact fun h i hadm _ => (hfits i).mpr (h hadm)
  | _ => exact Iff.rfl

/-- In a run, from any state and with any list and header, every answer to a list request and
every header sent fits, exactly when every step meets the guard. -/
theorem messagesFit_iff_guarded {program : Program} {n n' : Node} {ls : List (Env × Event)} :
    Run (Guarded (NodeStep program) FitGuard) n ls n' ↔
      Run (Safe (NodeStep program) fun m l _ => MessagesFit program m l) n ls n' := by
  refine Run.guarded_iff_safe (fun _ => True) ?_ ?_ trivial
  · exact fun s l t _ hguard _ => ⟨trivial, (messagesFit_iff program s l).mpr hguard⟩
  · exact fun s l t _ _ hfit => (messagesFit_iff program s l).mp hfit

/-- A ResList names the nodes 2 to 35. -/
def nameMany : List (Env × Event) := [
  (Env.clock ⟨1, 0⟩,
    .initialStatus (initialStatusData [statusOf 1 2 12346 1, statusOf 0 1 12345 0]) 68),
  (Env.clock ⟨2, 0⟩, .resList (packetData (((List.range 34).map fun k =>
    statusOf (UInt16.ofNat (k + 2)) 3 12347 1).flatMap copyNodeStatusToBytes)) 1020)]

/-- A Void element of `k` data bytes, all zero. -/
def voidElement (k : Nat) (h : k < 2 ^ 14 - 1) : Element where
  idWidth := 1
  idValue := 108
  width := 2
  data := List.replicate k 0
  idWidth_pos := by decide
  idWidth_le := by decide
  idValue_lt := by decide
  width_pos := by decide
  width_le := by decide
  size_lt := by rwa [List.length_replicate]

theorem voidElement_id (k : Nat) (h : k < 2 ^ 14 - 1) : (voidElement k h).id = voidId := by
  show 2 ^ (7 * 1) + 108 = voidId
  decide

theorem length_voidElement (k : Nat) (h : k < 2 ^ 14 - 1) :
    (voidElement k h).bytes.length = k + 3 := by
  rw [Element.length_bytes, Nat.add_comm]
  exact congrArg (· + 3) List.length_replicate

/-- The origin's globals on a file whose first Cluster stands behind 1010 bytes. -/
def longHeader : Webm := { firstOrigin.webm with
  file := (voidElement 1007 (by decide)).bytes ++ (toBe 4 clusterId ++ List.replicate 100 0)
  totalFileBytes := 1114 }

theorem longHeader_accepted : ∃ w, updateWebMHeaderFromWebM Buf.zero longHeader = .ok (w, true) ∧
    w.webmHeaderTotalBytes.toNat = 1010 := by
  have hlength := length_voidElement 1007 (by decide)
  have hid := voidElement_id 1007 (by decide)
  obtain ⟨w, haccepted, htotal, -⟩ := updateWebMHeaderFromWebM_element (w := longHeader)
    (by rw [hid]; decide) (by rw [hid]; decide) (by rw [hlength]; decide) rfl rfl (by decide)
    (by rw [hlength]; decide)
  exact ⟨w, haccepted, by rw [htotal, hlength]⟩

/-- A first Setup from 10.0.0.3. -/
def firstSetup : Env × Event :=
  (Env.clock ⟨2, 0⟩, .setup (packetData [10, 0, 0, 3]) 4 0x0300000a 12347)

/-- The origin whose timer has run once. -/
def filledOrigin : Node := timeCache (Env.clock ⟨1, 0⟩) firstOrigin

theorem filledOrigin_admits (w : Webm) :
    AdmitsSetup (Env.clock ⟨2, 0⟩) { filledOrigin with webm := w } := by
  have hadm : generateRndID 0 0 1 filledOrigin = some myId ∧
      ¬ filledOrigin.currentCache < defaultCache ∧ checkChildNum filledOrigin ≠ none := by
    decide +kernel
  exact hadm

/-- A list of 34 records, and a header of 1010 bytes, overflow the array. -/
theorem messages_overflow :
    (∃ n, Started .peer firstPeer ∧ Run (NodeStep .peer) firstPeer nameMany n ∧
      requester 0 n = some parentId ∧ maxDataBytes < resListWritten parentId n) ∧
    ∃ w n, updateWebMHeaderFromWebM Buf.zero longHeader = .ok (w, true) ∧
      Run (NodeStep .origin) firstOrigin
        [(Env.clock ⟨1, 0⟩, .timeCache), (Env.clock ⟨1, 0⟩, .main w)] n ∧
      ¬ MessagesFit .origin n firstSetup := by
  constructor
  · refine ⟨_, .peer _ _ _ _ _ _, .cons rfl (.cons rfl (.nil _)), ?_⟩
    decide +kernel
  · obtain ⟨w, haccepted, htotal⟩ := longHeader_accepted
    refine ⟨w, { filledOrigin with webm := { w with
      currentChildBlock := filledOrigin.webm.currentChildBlock } }, haccepted,
      .cons rfl (.cons rfl (.nil _)), fun hfit => ?_⟩
    have hle : w.webmHeaderTotalBytes.toNat ≤ 1000 :=
      (messagesFit_iff _ _ _).mp hfit (filledOrigin_admits _)
    omega

end P2PStream
