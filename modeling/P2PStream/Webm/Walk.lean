/-
# `P2PStream.Webm.Walk` — counting whole elements in a window

`GetChankByBytes` sees a window of `req` bytes of a payload; what lies past the
window reads as zero.  On a payload of SimpleBlocks followed by a Cluster or
Cues id it stops for one of three reasons: the id is in view (`CLUSTER_END`),
the id is cut by the window, or the next SimpleBlock does not fit, its header in
view or cut.  A header cut by the window at any byte decodes to a length that
reaches past the window, so the walk never mistakes it for anything else.
-/
import P2PStream.Webm.Block

namespace P2PStream

open Lib

/-- `b` shows the first `r` bytes of `l`, and zeros past them. -/
structure Window (b : Buf) (l : List UInt8) (r : Nat) : Prop where
  inside : ∀ i, i < r → ∀ h : i < l.length, b i = l[i]
  past : ∀ i, r ≤ i → b i = 0

namespace Window

variable {b : Buf} {l x y : List UInt8} {r : Nat}

theorem holds (h : Window b (x ++ y) r) (hx : x.length ≤ r) : b.Holds x := by
  intro i hi
  rw [h.inside i (by omega) (by simp; omega)]
  simp [hi]

theorem drop (h : Window b (x ++ y) r) (hx : x.length ≤ r) :
    Window (b.drop x.length) y (r - x.length) where
  inside := by
    intro i hi hy
    rw [Buf.drop_apply, h.inside _ (by omega) (by simp; omega)]
    simp
  past := fun i hi => h.past _ (by omega)

/-- A window that does not reach the end of `l` is a zero buffer under `l.take r`. -/
theorem eq_overlay (h : Window b l r) (hr : r ≤ l.length) :
    b = Buf.zero.overlay (l.take r) := by
  funext i
  by_cases hi : i < r
  · rw [h.inside i hi (by omega)]
    simp [Buf.overlay, hi, show i < l.length by omega]
  · rw [h.past i (by omega), Buf.overlay_past _ _ (by simp; omega)]
    rfl

theorem overlay (l : List UInt8) (r : Nat) : Window (Buf.zero.overlay (l.take r)) l r where
  inside := by
    intro i hi hl
    simp [Buf.overlay, hi, hl]
  past := by
    intro i hi
    rw [Buf.overlay_past _ _ (by rw [List.length_take]; omega)]
    rfl

theorem restrict (h : Window b l r) (hp : x <+: l) : Window b x r := by
  obtain ⟨t, rfl⟩ := hp
  refine ⟨fun i hi hx => ?_, h.past⟩
  rw [h.inside i hi (by simp; omega)]
  simp [hx]

end Window

/-! ## Elements of a cluster -/

/-- A Timecode element of at most 8 data bytes. -/
def IsTimecode (e : Element) : Prop := e.id = timecodeId ∧ e.data.length ≤ 8

def IsSimpleBlock (e : Element) : Prop := e.id = simpleblockId

/-- The bytes that end a payload: the id of the next Cluster, or of the Cues. -/
def IsStop (l : List UInt8) : Prop := toBe 4 clusterId <+: l ∨ toBe 4 cueId <+: l

theorem idWidth_eq_one {e : Element} (h : e.id < 256) : e.idWidth = 1 := by
  have h0 := e.idWidth_pos
  by_contra hne
  have hpow : 2 ^ 14 ≤ 2 ^ (7 * e.idWidth) := Nat.pow_le_pow_right (by decide) (by omega)
  have : 2 ^ (7 * e.idWidth) ≤ e.id := Nat.le_add_right _ _
  omega

theorem IsTimecode.idWidth {e : Element} (h : IsTimecode e) : e.idWidth = 1 :=
  idWidth_eq_one (by rw [h.1]; decide)

theorem IsSimpleBlock.idWidth {e : Element} (h : IsSimpleBlock e) : e.idWidth = 1 :=
  idWidth_eq_one (by rw [h]; decide)

/-! ## Headers cut by the window -/

/-- A header the window cuts: no end of cluster, and longer than what is in view. -/
structure LooksTooLong (b : Buf) (r : Nat) : Prop where
  not_cluster : (getChank b).id ≠ clusterId
  not_cue : (getChank b).id ≠ cueId
  long : r < (getChank b).chankBytes
  bounded : (getChank b).chankBytes < 2 ^ 63

theorem looksTooLong_zero : LooksTooLong Buf.zero 0 := by
  constructor <;> decide

theorem looksTooLong_stop {b : Buf} {l : List UInt8} {r : Nat} (hl : IsStop l)
    (h : Window b l r) (hr : r < 4) : LooksTooLong b r := by
  rcases hl with hp | hp
  all_goals
    rw [(h.restrict hp).eq_overlay (by simp; omega)]
    interval_cases r <;> constructor <;> decide

theorem not_end_of_counted {e : Element} (hid : e.id = timecodeId ∨ e.id = simpleblockId) :
    e.id ≠ clusterId ∧ e.id ≠ cueId := by
  rcases hid with h | h <;> rw [h] <;> decide

/-- The first byte of a field gives its length, also where the window cuts the rest of it. -/
theorem Window.marker {b : Buf} {y : List UInt8} {r w v : Nat} (h : Window b (vint w v ++ y) r)
    (hr : 0 < r) (h0 : 0 < w) (h8 : w ≤ 8) (hv : v < 2 ^ (7 * w)) :
    markerLength (b 0) = w ∧ b 0 ≠ 0 := by
  have hcons := vint_eq_cons v h0 h8
  obtain ⟨hmark, -, hval⟩ := marker_vint w h0 h8 _ (vint_head_lt h0 h8 hv)
  have hfirst : b 0 = UInt8.ofNat (2 ^ (8 - w) + v / 256 ^ (w - 1)) := by
    have hlt : 0 < (vint w v ++ y).length := by
      rw [List.length_append, length_vint]
      omega
    rw [h.inside 0 hr hlt]
    simp [hcons]
  refine ⟨by rw [hfirst, hmark], fun hzero => ?_⟩
  have := congrArg UInt8.toNat (hfirst.symm.trans hzero)
  rw [hval] at this
  exact absurd this (by positivity)

/-- An id that the window cuts ends in a zero byte, and its size field is all zeros. -/
theorem looksTooLong_cut_id {b : Buf} {e : Element} {y : List UInt8} {r : Nat}
    (h : Window b (e.bytes ++ y) r) (hr : 0 < r) (hcut : r < e.idWidth) : LooksTooLong b r := by
  have hle := e.idWidth_le
  have hbytes : e.bytes ++ y = vint e.idWidth e.idValue ++
      (vint e.width e.data.length ++ (e.data ++ y)) := by
    simp [Element.bytes, Element.header]
  rw [hbytes] at h
  obtain ⟨hmark, -⟩ := h.marker hr e.idWidth_pos (by omega) e.idValue_lt
  have hid : getEBMLID b = ((getEBMLID b).1, e.idWidth) := Prod.ext rfl hmark
  have hlast : (getChank b).id % 256 = 0 := by
    obtain ⟨k, hk⟩ : ∃ k, e.idWidth - 1 = k + 1 := ⟨e.idWidth - 2, by omega⟩
    have hbyte : b (1 + k) = 0 := h.past _ (by omega)
    rw [getChank_id]
    simp only [getEBMLID, hmark, hk]
    rw [Nat.mod_mod_of_dvd _ (by decide), accumulate_mod, hbyte]
    rfl
  have hzero : b.drop e.idWidth = Buf.zero := funext fun i => h.past _ (by omega)
  have hlen : (getChank b).chankBytes = e.idWidth + 9 := by
    have hsize : getDataBytes (b.drop e.idWidth) = (0, 9) := by
      rw [hzero]
      decide
    rw [getChank_chankBytes hid hsize, if_neg (by decide)]
    omega
  refine ⟨fun heq => ?_, fun heq => ?_, by omega, by omega⟩
  · rw [heq] at hlast
    exact absurd hlast (by decide)
  · rw [heq] at hlast
    exact absurd hlast (by decide)

/-- A header whose id is in view and whose size field the window cuts. -/
theorem looksTooLong_cut_size {b : Buf} {e : Element} {y : List UInt8} {r : Nat}
    (hnotEnd : e.id ≠ clusterId ∧ e.id ≠ cueId) (h : Window b (e.bytes ++ y) r)
    (hid : e.idWidth ≤ r) (hr : r < e.header.length) : LooksTooLong b r := by
  have hw := e.width_le
  have hidLe := e.idWidth_le
  have hbytes : e.bytes ++ y = vint e.idWidth e.idValue ++
      (vint e.width e.data.length ++ (e.data ++ y)) := by
    simp [Element.bytes, Element.header]
  rw [hbytes] at h
  rw [e.length_header] at hr
  have hgetId := getEBMLID_vint e.idWidth_pos e.idWidth_le e.idValue_lt
    (h.holds (by rw [length_vint]; exact hid))
  have hchank : (getChank b).id = e.id := by
    rw [getChank_id, hgetId]
    rfl
  have hsizeWindow := h.drop (by rw [length_vint]; exact hid)
  rw [length_vint] at hsizeWindow
  have hlong : r < (getChank b).chankBytes ∧ (getChank b).chankBytes < 2 ^ 63 := by
    by_cases hsize : r = e.idWidth
    · -- no byte of the size field is in view
      have hzero : b.drop e.idWidth = Buf.zero :=
        funext fun i => hsizeWindow.past i (by omega)
      have hlen : getDataBytes (b.drop e.idWidth) = (0, 9) := by
        rw [hzero]
        decide
      rw [getChank_chankBytes hgetId hlen, if_neg (by decide)]
      omega
    · -- its first byte is in view, and gives its length
      obtain ⟨hmark, hne⟩ := hsizeWindow.marker (by omega) e.width_pos hw e.data_length_lt
      obtain ⟨hdata, -⟩ := getDataBytes_lt hne
      rw [hmark] at hdata
      have hlen : getDataBytes (b.drop e.idWidth) =
          ((getDataBytes (b.drop e.idWidth)).1, e.width) := Prod.ext rfl hmark
      have h56 : (2 : Nat) ^ (7 * e.width) ≤ 2 ^ 56 :=
        Nat.pow_le_pow_right (by decide) (by omega)
      rw [getChank_chankBytes hgetId hlen]
      split
      · exact ⟨by omega, by omega⟩
      · rw [Nat.mod_eq_of_lt (by omega)]
        exact ⟨by omega, by omega⟩
  exact ⟨hchank ▸ hnotEnd.1, hchank ▸ hnotEnd.2, hlong.1, hlong.2⟩

theorem looksTooLong_header {b : Buf} {e : Element} {y : List UInt8} {r : Nat}
    (hnotEnd : e.id ≠ clusterId ∧ e.id ≠ cueId)
    (h : Window b (e.bytes ++ y) r) (hr : r < e.header.length) : LooksTooLong b r := by
  rcases Nat.eq_zero_or_pos r with rfl | hpos
  · -- nothing is in view
    rw [h.eq_overlay (Nat.zero_le _), List.take_zero]
    exact looksTooLong_zero
  by_cases hid : r < e.idWidth
  · exact looksTooLong_cut_id h hpos hid
  · exact looksTooLong_cut_size hnotEnd h (by omega) hr

theorem element_bytes_lt (e : Element) : e.bytes.length < 2 ^ 63 := by
  have h56 : (2 : Nat) ^ (7 * e.width) ≤ 2 ^ 56 :=
    Nat.pow_le_pow_right (by decide) (by have := e.width_le; omega)
  have := e.data_length_lt
  have := e.idWidth_le
  have := e.width_le
  rw [e.length_bytes]
  omega

/-- An element that does not fit the window, whether its header is in view or cut. -/
theorem looksTooLong_element {b : Buf} {e : Element} {y : List UInt8} {r : Nat}
    (hnotEnd : e.id ≠ clusterId ∧ e.id ≠ cueId)
    (h : Window b (e.bytes ++ y) r) (hr : r < e.bytes.length) : LooksTooLong b r := by
  by_cases hcut : r < e.header.length
  · exact looksTooLong_header hnotEnd h hcut
  · have hheader : b.Holds e.header := by
      rw [Element.bytes, List.append_assoc] at h
      exact h.holds (by omega)
    constructor <;> rw [getChank_element e hheader]
    · exact hnotEnd.1
    · exact hnotEnd.2
    · exact hr
    · exact element_bytes_lt e

/-! ## One round of the walk -/

section Rounds

variable {b : Buf} {req total : Nat} (fuel : Nat) (status : Int)

theorem walk_stop {r : Nat} (hr : total + r = req) (hreq : req < 2 ^ 16)
    (h : LooksTooLong (b.drop total) r) :
    getChankByBytesLoop b req (fuel + 1) total status = some (status, total) := by
  have hlong := h.long
  have hbounded := h.bounded
  have hmod : req < (total + (getChank (b.drop total)).chankBytes) % 2 ^ 64 := by
    rw [Nat.mod_eq_of_lt (by omega)]
    omega
  rw [getChankByBytesLoop]
  simp only [if_neg h.not_cluster, if_neg h.not_cue, if_pos hmod]

/-- The walk ends the cluster at the id of the next Cluster or of the Cues. -/
theorem walk_end {l : List UInt8} (hl : IsStop l) (h : (b.drop total).Holds (l.take 4)) :
    getChankByBytesLoop b req (fuel + 1) total status = some (clusterEnd, total) := by
  have hid : (getChank (b.drop total)).id = clusterId ∨ (getChank (b.drop total)).id = cueId := by
    rcases hl with ⟨t, rfl⟩ | ⟨t, rfl⟩
    · refine Or.inl ?_
      rw [getChank_id, getEBMLID_vint (by decide : 0 < 4) (le_refl 4)
        (by decide : clusterId - 2 ^ 28 < 2 ^ (7 * 4)) h]
      decide
    · refine Or.inr ?_
      rw [getChank_id, getEBMLID_vint (by decide : 0 < 4) (le_refl 4)
        (by decide : cueId - 2 ^ 28 < 2 ^ (7 * 4)) h]
      decide
  rw [getChankByBytesLoop]
  rcases hid with hid | hid
  · simp only [if_pos hid]
  · have : cueId ≠ clusterId := by decide
    simp only [hid, if_neg this, if_true]

/-- The walk goes over an element whose header is in view and that fits. -/
theorem walk_header {e : Element} (hid : e.id = timecodeId ∨ e.id = simpleblockId)
    (hreq : req < 2 ^ 16) (hheader : (b.drop total).Holds e.header)
    (hfit : total + e.bytes.length ≤ req) :
    getChankByBytesLoop b req (fuel + 1) total status
      = getChankByBytesLoop b req fuel (total + e.bytes.length)
          (if e.id = timecodeId then onlyTimecode else 1) := by
  have hnotEnd := not_end_of_counted hid
  have hmod : (total + e.bytes.length) % 2 ^ 64 = total + e.bytes.length :=
    Nat.mod_eq_of_lt (by omega)
  have hfits : ¬ req < total + e.bytes.length := by omega
  rw [getChankByBytesLoop, getChank_element e hheader]
  simp only [if_neg hnotEnd.1, if_neg hnotEnd.2, hmod, if_neg hfits]
  rcases hid with hid | hid
  · simp only [if_pos hid]
  · have : simpleblockId ≠ timecodeId := by decide
    simp only [hid, if_neg this, if_true]

theorem walk_element {e : Element} {y : List UInt8} {r : Nat}
    (hid : e.id = timecodeId ∨ e.id = simpleblockId) (hr : total + r = req) (hreq : req < 2 ^ 16)
    (h : Window (b.drop total) (e.bytes ++ y) r) (hfit : e.bytes.length ≤ r) :
    getChankByBytesLoop b req (fuel + 1) total status
      = getChankByBytesLoop b req fuel (total + e.bytes.length)
          (if e.id = timecodeId then onlyTimecode else 1) := by
  have hheader : (b.drop total).Holds e.header := by
    have hlen := e.length_bytes
    rw [Element.bytes, List.append_assoc] at h
    exact h.holds (by rw [e.length_header]; omega)
  exact walk_header fuel status hid hreq hheader (by omega)

end Rounds

/-! ## The whole walk -/

/-- The bytes of consecutive elements. -/
def payload (es : List Element) : List UInt8 := es.flatMap Element.bytes

@[simp] theorem payload_nil : payload [] = [] := rfl

@[simp] theorem payload_cons (e : Element) (es : List Element) :
    payload (e :: es) = e.bytes ++ payload es := rfl

@[simp] theorem payload_append (es fs : List Element) :
    payload (es ++ fs) = payload es ++ payload fs := List.flatMap_append

/-- Why a walk of `r` bytes that took `done` stopped in front of `rest`, before the
end of the cluster came into view. -/
def Blocked (r : Nat) (done rest : List Element) : Prop :=
  (rest = [] ∧ r < (payload done).length + 4) ∨
    ∃ e rest', rest = e :: rest' ∧ r < (payload done).length + e.bytes.length

/-- The walk over SimpleBlocks: it takes the longest prefix that fits and either
sees the end of the cluster behind it or is blocked. -/
theorem walk_simpleBlocks {b : Buf} {stop : List UInt8} (hstop : IsStop stop) {req : Nat}
    (hreq : req < 2 ^ 16) {es : List Element} (hes : ∀ e ∈ es, IsSimpleBlock e) :
    ∀ (total r fuel : Nat) (status : Int), total + r = req → r < fuel →
      Window (b.drop total) (payload es ++ stop) r →
      ∃ done rest status', es = done ++ rest ∧ (payload done).length ≤ r ∧
        getChankByBytesLoop b req fuel total status
          = some (status', total + (payload done).length) ∧
        ((rest = [] ∧ status' = clusterEnd) ∨
          (Blocked r done rest ∧ status' = if done = [] then status else 1)) := by
  induction es with
  | nil =>
      intro total r fuel status hr hfuel hw
      obtain ⟨fuel, rfl⟩ : ∃ k, fuel = k + 1 := ⟨fuel - 1, by omega⟩
      by_cases hview : 4 ≤ r
      · have hlen : 4 ≤ stop.length := by
          rcases hstop with hp | hp <;> simpa using hp.length_le
        have hsplit : payload [] ++ stop = stop.take 4 ++ stop.drop 4 := by simp
        rw [hsplit] at hw
        refine ⟨[], [], clusterEnd, rfl, Nat.zero_le _, ?_, Or.inl ⟨rfl, rfl⟩⟩
        exact walk_end fuel status hstop (hw.holds (by rw [List.length_take]; omega))
      · refine ⟨[], [], status, rfl, Nat.zero_le _, ?_, Or.inr ⟨?_, by simp⟩⟩
        · exact walk_stop fuel status hr hreq (looksTooLong_stop hstop hw (by omega))
        · exact Or.inl ⟨rfl, by simp; omega⟩
  | cons e es ih =>
      intro total r fuel status hr hfuel hw
      obtain ⟨fuel, rfl⟩ : ∃ k, fuel = k + 1 := ⟨fuel - 1, by omega⟩
      have hid : e.id = timecodeId ∨ e.id = simpleblockId :=
        Or.inr (hes e List.mem_cons_self)
      rw [payload_cons, List.append_assoc] at hw
      by_cases hfit : e.bytes.length ≤ r
      · have hpos : 0 < e.bytes.length := List.length_pos_iff.mpr e.bytes_ne_nil
        have hwNext := hw.drop hfit
        rw [Buf.drop_drop] at hwNext
        obtain ⟨done, rest, status', hes', hle, hloop, hend⟩ :=
          ih (fun x hx => hes x (List.mem_cons_of_mem _ hx)) (total + e.bytes.length)
            (r - e.bytes.length) fuel 1 (by omega) (by omega) hwNext
        have hnot : simpleblockId ≠ timecodeId := by decide
        have hlen : (payload (e :: done)).length = e.bytes.length + (payload done).length := by
          simp
        refine ⟨e :: done, rest, status', by simp [hes'], by omega, ?_, ?_⟩
        · rw [walk_element fuel status hid hr hreq hw hfit, hes e List.mem_cons_self, if_neg hnot,
            hloop, hlen, Nat.add_assoc]
        · rcases hend with hend | ⟨hblocked, hstatus⟩
          · exact Or.inl hend
          · refine Or.inr ⟨?_, by simpa using hstatus⟩
            rcases hblocked with ⟨hrest, hlt⟩ | ⟨f, rest', hrest, hlt⟩
            · exact Or.inl ⟨hrest, by omega⟩
            · exact Or.inr ⟨f, rest', hrest, by omega⟩
      · refine ⟨[], e :: es, status, rfl, Nat.zero_le _, ?_, Or.inr ⟨?_, by simp⟩⟩
        · exact walk_stop fuel status hr hreq
            (looksTooLong_element (not_end_of_counted hid) hw (by omega))
        · exact Or.inr ⟨e, es, rfl, by simp; omega⟩

end P2PStream
