/-
# `P2PStream.Webm.Shown` — what the bytes of the window show (`webm_parser.c`)

What `GetChankByBytes` does at a header is decided by the window in three cases.  An id
that the window cuts can be none of those that the walk looks for; an id in the window is
neither Timecode nor SimpleBlock; or the first byte of the size is in the window too, and
the field is in it whole, or has at most eight bytes, or holds nothing that wraps.  In
every other case two continuations of the window take the walk apart.

The result is decided when all headers are that the walk comes to.  The converse holds but
for one kind of window: a nine-byte size field that is cut, and that wraps whatever its
last bytes are.
-/
import P2PStream.Webm.InView

namespace P2PStream

open Lib

/-! ## The bytes that show it -/

/-- Where the id that starts at `p` ends. -/
def idEnd (buf : Buf) (p : Nat) : Nat := p + markerLength (buf p)

/-- The ids that `GetChankByBytes` looks for. -/
def walkedIds : List Nat := [clusterId, cueId, timecodeId, simpleblockId]

/-- An id of four bytes or more, cut by the window, can be `id`: what the window has of its last
four bytes begins `id`. -/
def IdCanBe (buf : Buf) (req p id : Nat) : Prop :=
  4 ≤ markerLength (buf p) ∧
    (buf.drop (idEnd buf p - 4)).take (req - (idEnd buf p - 4)) <+: toBe 4 id

/-- The least size that a nine-byte size field can hold, which the window cuts: the bytes that are
missing are zero. -/
def leastSize (buf : Buf) (req p : Nat) : Nat :=
  ofBe ((buf.drop (idEnd buf p + 1)).take (req - (idEnd buf p + 1))) *
    256 ^ (idEnd buf p + 9 - req)

/-- The bytes of the window show what the walk does at `p`.  An id that is cut can be none of those
that the walk looks for.  An id in the window is neither Timecode nor SimpleBlock; or the first
byte of the size is in the window too, and it is not zero, or the nine bytes of the field are in the
window, or the greatest size that they can hold does not wrap. -/
def HeaderShown (buf : Buf) (req p : Nat) : Prop :=
  if req < idEnd buf p then p < req ∧ ∀ id ∈ walkedIds, ¬ IdCanBe buf req p id
  else (getEBMLID (buf.drop p)).1 ∉ [timecodeId, simpleblockId] ∨
    idEnd buf p < req ∧ (buf (idEnd buf p) ≠ 0 ∨ idEnd buf p + 9 ≤ req ∨
      idEnd buf p + 9 + leastSize buf req p + 256 ^ (idEnd buf p + 9 - req) ≤ 2 ^ 64)

instance (buf : Buf) (req p id : Nat) : Decidable (IdCanBe buf req p id) :=
  inferInstanceAs (Decidable (_ ∧ _))

instance (buf : Buf) (req p : Nat) : Decidable (HeaderShown buf req p) :=
  inferInstanceAs (Decidable (if req < idEnd buf p then _ else _ ∨ _))

/-- The walk goes on at `p` whatever lies behind the window: the nine-byte size of a Timecode or
SimpleBlock is cut, and it wraps into the window with every value of the bytes that are missing. -/
structure WrapsAt (buf : Buf) (req p : Nat) : Prop where
  id : (getEBMLID (buf.drop p)).1 ∈ [timecodeId, simpleblockId]
  size : idEnd buf p < req ∧ buf (idEnd buf p) = 0
  cut : req < idEnd buf p + 9
  least : 2 ^ 64 ≤ idEnd buf p + 9 + leastSize buf req p
  greatest :
    idEnd buf p + 9 + leastSize buf req p + 256 ^ (idEnd buf p + 9 - req) ≤ 2 ^ 64 + req + 1

section Shown

variable {buf : Buf} {req p : Nat}

theorem chankRound_of_notWalked (h : (getChank (buf.drop p)).id ∉ walkedIds) :
    chankRound buf req p = .leaves := by
  simp only [walkedIds, List.mem_cons, List.not_mem_nil, or_false, not_or] at h
  simp only [chankRound, h.1, h.2.1, h.2.2.1, h.2.2.2, or_self, if_false, ite_self]

theorem idEnd_same {b : Buf} (hp : p < req) (hsame : Region.Same buf b ⟨0, req⟩) :
    idEnd b p = idEnd buf p := by
  rw [idEnd, idEnd, hsame.byte hp]

theorem zero_not_walked {id : Nat} (h : id % 256 = 0) : id ∉ walkedIds := by
  intro hmem
  have hlow : ∀ x ∈ walkedIds, x % 256 ≠ 0 := by decide
  exact hlow id hmem h

/-- A cut id of four bytes or more becomes what is put behind the window. -/
theorem getChank_id_of_put {id : Nat} {l : List UInt8} (hp : p < req) (hid : id < 2 ^ 32)
    (hlength : 4 ≤ markerLength (buf p))
    (hcan : (buf.drop (idEnd buf p - 4)).take (req - (idEnd buf p - 4)) <+: toBe 4 id ++ l) :
    (getChank ((buf.put (idEnd buf p - 4) (toBe 4 id ++ l)).drop p)).id = id := by
  have hsame := put_same hcan
  have hfirst := hsame.byte hp
  have hholds := Buf.put_holds buf (idEnd buf p - 4) (toBe 4 id ++ l)
  generalize buf.put (idEnd buf p - 4) (toBe 4 id ++ l) = b at *
  have hlength' : 4 ≤ markerLength ((b.drop p) 0) := by
    show 4 ≤ markerLength (b p)
    rw [← hfirst]
    exact hlength
  rw [getChank_id, getEBMLID_eq_iff _ hlength' hid, Buf.drop_drop]
  have hpos : p + (markerLength ((b.drop p) 0) - 4) = idEnd buf p - 4 := by
    show p + (markerLength (b p) - 4) = _
    rw [← hfirst, idEnd]
    omega
  have htake := Buf.holds_take.mp (Buf.holds_append.mp hholds).1
  rw [hpos, ← htake, length_toBe]

theorem idCanBe_of_id {b : Buf} {id : Nat} (hp : p < req) (hcut : req < idEnd buf p)
    (hsame : Region.Same buf b ⟨0, req⟩) (hid : (getChank (b.drop p)).id = id)
    (hwalked : id ∈ walkedIds) : IdCanBe buf req p id := by
  have hfirst := hsame.byte hp
  have hlong : 2 ≤ markerLength (buf p) := by
    rw [idEnd] at hcut
    omega
  rw [getChank_id] at hid
  have hlength : 4 ≤ markerLength (buf p) := by
    by_contra hshort
    obtain ⟨hlow, hhigh⟩ := getEBMLID_short (b.drop p)
      (by show 2 ≤ markerLength (b p); rw [← hfirst]; exact hlong)
      (by show markerLength (b p) < 4; rw [← hfirst]; omega)
    rw [hid] at hlow hhigh
    have hids : ∀ x ∈ walkedIds, x < 256 ∨ 2 ^ 24 ≤ x := by decide
    have := hids id hwalked
    omega
  refine ⟨hlength, ?_⟩
  have hbounds : ∀ x ∈ walkedIds, x < 2 ^ 32 := by decide
  have hspelled := (getEBMLID_eq_iff (b.drop p)
    (by show 4 ≤ markerLength (b p); rw [← hfirst]; exact hlength) (hbounds id hwalked)).mp hid
  have hpos : p + (markerLength ((b.drop p) 0) - 4) = idEnd buf p - 4 := by
    show p + (markerLength (b p) - 4) = _
    rw [← hfirst, idEnd]
    omega
  rw [Buf.drop_drop, hpos] at hspelled
  have hpart : (buf.drop (idEnd buf p - 4)).take (req - (idEnd buf p - 4)) =
      (b.drop (idEnd buf p - 4)).take (req - (idEnd buf p - 4)) :=
    Buf.take_congr fun i hi => hsame.byte (by omega)
  have hsplit : 4 = (req - (idEnd buf p - 4)) + (4 - (req - (idEnd buf p - 4))) := by omega
  have hfour : (b.drop (idEnd buf p - 4)).take 4 = (b.drop (idEnd buf p - 4)).take
      (req - (idEnd buf p - 4) + (4 - (req - (idEnd buf p - 4)))) := congrArg _ hsplit
  rw [hpart, ← hspelled, hfour, Buf.take_add]
  exact List.prefix_append _ _

theorem chankRound_of_nine (b : Buf) {d : Nat} (hreq : req < 2 ^ 16)
    (hid : (getChank (b.drop p)).id ∈ [timecodeId, simpleblockId]) (hp : p ≤ req)
    (hzero : b (idEnd b p) = 0) (hd : ofBe ((b.drop (idEnd b p + 1)).take 8) = d)
    (hcut : req < idEnd b p + 9) :
    chankRound b req p = if req < (idEnd b p + 9 + d) % 2 ^ 64 then .leaves
      else .goesOn (if (getChank (b.drop p)).id = timecodeId then onlyTimecode else 1)
        ((idEnd b p + 9 + d) % 2 ^ 64) := by
  have hnotEnd : ¬ ((getChank (b.drop p)).id = clusterId ∨
      (getChank (b.drop p)).id = cueId) := by
    have hids : ∀ x ∈ [timecodeId, simpleblockId], ¬ (x = clusterId ∨ x = cueId) := by decide
    exact hids _ hid
  have hlength := markerLength_le (b p)
  have hend : idEnd b p = p + markerLength (b p) := rfl
  have hlt := ofBe_lt ((b.drop (idEnd b p + 1)).take 8)
  rw [Buf.length_take, hd] at hlt
  have hsum : (p + (getChank (b.drop p)).chankBytes) % 2 ^ 64 =
      if d = unknownSize then idEnd b p + 9 else (idEnd b p + 9 + d) % 2 ^ 64 := by
    have hsize : getDataBytes ((b.drop p).drop (markerLength (b p))) = (d, 9) := by
      rw [getDataBytes_nine (by exact hzero), Buf.drop_drop, Buf.drop_drop, ← Nat.add_assoc]
      exact congrArg (·, 9) hd
    have hbytes : (getChank (b.drop p)).chankBytes = if d = unknownSize then
        markerLength (b p) + 9 else (markerLength (b p) + 9 + d) % 2 ^ 64 :=
      getChank_chankBytes rfl hsize
    rw [hbytes, hend]
    split
    · rw [Nat.mod_eq_of_lt (by omega), Nat.add_assoc]
    · rw [Nat.add_mod_mod]
      congr 1
      omega
  simp only [chankRound, if_neg hnotEnd, hsum]
  by_cases hunknown : d = unknownSize
  · -- the size that stands for "unknown" does not wrap
    have hlt : unknownSize < 2 ^ 56 := by decide
    have hsmall : (idEnd b p + 9 + d) % 2 ^ 64 = idEnd b p + 9 + d :=
      Nat.mod_eq_of_lt (by omega)
    rw [if_pos hunknown, if_pos hcut, hsmall, if_pos (by omega)]
  · rw [if_neg hunknown]
    split
    · rfl
    · simp only [List.mem_cons, List.not_mem_nil, or_false] at hid
      by_cases htimecode : (getChank (b.drop p)).id = timecodeId
      · rw [if_pos htimecode, if_pos htimecode]
      · rw [if_neg htimecode, if_neg htimecode, if_pos (hid.resolve_left htimecode)]

/-- A nine-byte size field: what the window has of it, and what lies behind. -/
theorem nineBytes_eq {b : Buf} (hsame : Region.Same buf b ⟨0, req⟩) (hsize : idEnd buf p < req)
    (hcut : req < idEnd buf p + 9) :
    ofBe ((b.drop (idEnd buf p + 1)).take 8) =
      leastSize buf req p + ofBe ((b.drop req).take (idEnd buf p + 9 - req)) := by
  have height : 8 = (req - (idEnd buf p + 1)) + (idEnd buf p + 9 - req) := by omega
  have hpart : (b.drop (idEnd buf p + 1)).take (req - (idEnd buf p + 1)) =
      (buf.drop (idEnd buf p + 1)).take (req - (idEnd buf p + 1)) :=
    Buf.take_congr fun i hi => (hsame.byte (by omega)).symm
  have hsplit : (b.drop (idEnd buf p + 1)).take 8 = (b.drop (idEnd buf p + 1)).take
      (req - (idEnd buf p + 1) + (idEnd buf p + 9 - req)) := congrArg _ height
  rw [hsplit, Buf.take_add, ofBe_append, Buf.length_take, Buf.drop_drop,
    Nat.add_sub_cancel' hsize, hpart]
  rfl

theorem leastSize_add_le (hsize : idEnd buf p < req) (hcut : req < idEnd buf p + 9) :
    leastSize buf req p + 256 ^ (idEnd buf p + 9 - req) ≤ 2 ^ 64 := by
  have hlt := ofBe_lt ((buf.drop (idEnd buf p + 1)).take (req - (idEnd buf p + 1)))
  rw [Buf.length_take] at hlt
  calc leastSize buf req p + 256 ^ (idEnd buf p + 9 - req)
      = (ofBe ((buf.drop (idEnd buf p + 1)).take (req - (idEnd buf p + 1))) + 1) *
          256 ^ (idEnd buf p + 9 - req) := by rw [Nat.succ_mul]; rfl
    _ ≤ 256 ^ (req - (idEnd buf p + 1)) * 256 ^ (idEnd buf p + 9 - req) :=
        Nat.mul_le_mul_right _ hlt
    _ = 2 ^ 64 := by
        rw [← pow_add, show req - (idEnd buf p + 1) + (idEnd buf p + 9 - req) = 8 by omega]
        decide

/-- A round that steps over a nine-byte size field behind the window ends where it says. -/
def StepsTo (buf : Buf) (req p total : Nat) : Prop :=
  ∃ status, chankRound buf req p = if req < total % 2 ^ 64 then .leaves
    else .goesOn status (total % 2 ^ 64)

theorem StepsTo.leaves {total : Nat} (h : StepsTo buf req p total) (hlt : total < 2 ^ 64)
    (hlong : req < total) : chankRound buf req p = .leaves := by
  obtain ⟨status, hround⟩ := h
  rw [hround, Nat.mod_eq_of_lt hlt, if_pos hlong]

theorem StepsTo.goesOn {total t : Nat} (h : StepsTo buf req p total) (hmod : total % 2 ^ 64 = t)
    (hle : t ≤ req) : ∃ status, chankRound buf req p = .goesOn status t := by
  obtain ⟨status, hround⟩ := h
  rw [hmod, if_neg (Nat.not_lt_of_le hle)] at hround
  exact ⟨status, hround⟩

theorem StepsTo.le {total : Nat} (h : StepsTo buf req p total)
    (hgo : (chankWalk buf req).goesOn p) : total % 2 ^ 64 ≤ req := by
  obtain ⟨status, hround⟩ := h
  obtain ⟨status', hgoes⟩ := chankRound_of_goesOn hgo
  by_contra hlong
  rw [hround, if_pos (Nat.lt_of_not_le hlong)] at hgoes
  cases hgoes

/-- The bytes that the window cuts off a nine-byte size field can be any. -/
theorem exists_missing (hreq : req < 2 ^ 16) (hp : p ≤ req)
    (hid : (getEBMLID (buf.drop p)).1 ∈ [timecodeId, simpleblockId]) (hsize : idEnd buf p < req)
    (hzero : buf (idEnd buf p) = 0) (hcut : req < idEnd buf p + 9) {x : Nat}
    (hx : x < 256 ^ (idEnd buf p + 9 - req)) :
    ∃ b, Region.Same buf b ⟨0, req⟩ ∧
      StepsTo b req p (idEnd buf p + 9 + leastSize buf req p + x) := by
  have hsame : Region.Same buf (buf.put req (toBe (idEnd buf p + 9 - req) x)) ⟨0, req⟩ :=
    put_same (by rw [Nat.sub_self]; exact List.nil_prefix)
  have hbehind := Buf.holds_take.mp (Buf.put_holds buf req (toBe (idEnd buf p + 9 - req) x))
  rw [length_toBe] at hbehind
  generalize buf.put req (toBe (idEnd buf p + 9 - req) x) = b at *
  have hpos := markerLength_pos (buf p)
  have hend : idEnd b p = idEnd buf p := idEnd_same (by rw [idEnd] at hsize; omega) hsame
  have hidSame := getChank_id_of_inView (p := p) (Nat.le_of_lt hsize) hsame
  have hbyte := hsame.byte hsize
  have hnine := nineBytes_eq hsame hsize hcut
  rw [hbehind, ofBe_toBe_of_lt hx] at hnine
  have hround := chankRound_of_nine b hreq (by rw [hidSame, getChank_id]; exact hid) hp
    (by rw [hend, ← hbyte]; exact hzero) (by rw [hend, hnine]) (by rw [hend]; exact hcut)
  rw [hend, ← Nat.add_assoc] at hround
  exact ⟨b, hsame, _, hround⟩

theorem exists_behind (hreq : req < 2 ^ 16)
    (hid : (getEBMLID (buf.drop p)).1 ∈ [timecodeId, simpleblockId]) (hend : idEnd buf p = req)
    {d : Nat} (hd : d < 2 ^ 64) :
    ∃ b, Region.Same buf b ⟨0, req⟩ ∧ StepsTo b req p (req + 9 + d) := by
  have hsame : Region.Same buf (buf.put req (0 :: toBe 8 d)) ⟨0, req⟩ :=
    put_same (by rw [Nat.sub_self]; exact List.nil_prefix)
  obtain ⟨hzero, hsize⟩ := Buf.holds_cons.mp (Buf.put_holds buf req (0 :: toBe 8 d))
  have hnine := Buf.holds_take.mp hsize
  rw [length_toBe, Buf.drop_drop] at hnine
  generalize buf.put req (0 :: toBe 8 d) = b at *
  have hpos := markerLength_pos (buf p)
  have hp : p < req := by rw [idEnd] at hend; omega
  have hendB : idEnd b p = req := (idEnd_same hp hsame).trans hend
  have hidSame := getChank_id_of_inView (p := p) (Nat.le_of_eq hend) hsame
  have hround := chankRound_of_nine b hreq
    (by rw [hidSame, getChank_id]; exact hid) (Nat.le_of_lt hp)
    (by rw [hendB]; exact hzero) (by rw [hendB, hnine, ofBe_toBe_of_lt hd])
    (by rw [hendB]; omega)
  rw [hendB] at hround
  exact ⟨b, hsame, _, hround⟩

/-- An id that the window cuts can end in a zero, and none of those looked for does. -/
theorem exists_leaves_of_cut (hcut : req < idEnd buf p) :
    ∃ b, Region.Same buf b ⟨0, req⟩ ∧ chankRound b req p = .leaves := by
  rcases Nat.lt_or_ge p req with hp | hp
  · have hsame : Region.Same buf (buf.put (idEnd buf p - 1) [0]) ⟨0, req⟩ :=
      put_same (by rw [show req - (idEnd buf p - 1) = 0 by omega]; exact List.nil_prefix)
    have hlast := (Buf.holds_cons.mp (Buf.put_holds buf (idEnd buf p - 1) [0])).1
    generalize buf.put (idEnd buf p - 1) [0] = b at *
    have hend := idEnd_same hp hsame
    have hlong : 2 ≤ markerLength ((b.drop p) 0) := by
      show 2 ≤ markerLength (b p)
      rw [idEnd] at hend
      omega
    refine ⟨b, hsame, chankRound_of_notWalked (zero_not_walked ?_)⟩
    rw [getChank_id, getEBMLID_mod hlong]
    have hbyte : (b.drop p) (markerLength ((b.drop p) 0) - 1) = 0 := by
      rw [← hlast]
      show b (p + (markerLength (b p) - 1)) = b (idEnd buf p - 1 + 0)
      rw [← hend, idEnd]
      congr 1
      have := markerLength_pos (b p)
      omega
    rw [hbyte]
    rfl
  · have hsame : Region.Same buf (buf.put p [0x81]) ⟨0, req⟩ :=
      put_same (by rw [Nat.sub_eq_zero_of_le hp]; exact List.nil_prefix)
    have hfirst : ((buf.put p [0x81]).drop p) 0 = 0x81 :=
      (Buf.holds_cons.mp (Buf.put_holds buf p [0x81])).1
    have hlength : markerLength 0x81 = 1 := by decide
    have hid : (getEBMLID ((buf.put p [0x81]).drop p)).1 = 0x81 := by
      simp only [getEBMLID, hfirst, hlength]
      rfl
    refine ⟨_, hsame, chankRound_of_notWalked ?_⟩
    rw [getChank_id, hid]
    decide

theorem headerDecided_of_leaves
    (h : ∀ b, Region.Same buf b ⟨0, req⟩ → chankRound b req p = .leaves) :
    HeaderDecided buf req p :=
  fun b hsame => (h b hsame).trans (h buf fun _ _ => rfl).symm

theorem getChank_dataHeaderPosition_le :
    p + (getChank (buf.drop p)).dataHeaderPosition ≤ idEnd buf p + 9 := by
  have hsize := markerLength_le (buf (idEnd buf p))
  rw [getChank_dataHeaderPosition]
  show p + (markerLength (buf p) + markerLength (buf (idEnd buf p))) ≤ _
  rw [idEnd] at *
  omega

theorem headerDecided_of_shown (hreq : req < 2 ^ 16) (h : HeaderShown buf req p) :
    HeaderDecided buf req p := by
  unfold HeaderShown at h
  by_cases hcut : req < idEnd buf p
  · rw [if_pos hcut] at h
    obtain ⟨hp, hids⟩ := h
    exact headerDecided_of_leaves fun b hsame => chankRound_of_notWalked fun hmem =>
      hids _ hmem (idCanBe_of_id hp hcut hsame rfl hmem)
  rw [if_neg hcut] at h
  have hidIn : p + markerLength (buf p) ≤ req := Nat.le_of_not_lt hcut
  by_cases hid : (getEBMLID (buf.drop p)).1 ∈ [timecodeId, simpleblockId]
  · obtain ⟨hsize, hrest⟩ := h.resolve_left (not_not_intro hid)
    by_cases hmarked : buf (idEnd buf p) ≠ 0
    · exact headerDecided_of_size hreq hsize hmarked
    by_cases hview : idEnd buf p + 9 ≤ req
    · exact headerDecided_of_inView (getChank_dataHeaderPosition_le.trans hview)
    have hfits := (hrest.resolve_left hmarked).resolve_left hview
    have hp : p < req := by
      have := markerLength_pos (buf p)
      omega
    refine headerDecided_of_leaves fun b hsame => ?_
    have hend : idEnd b p = idEnd buf p := idEnd_same hp hsame
    have hidSame := getChank_id_of_inView (p := p) hidIn hsame
    have hbyte := hsame.byte hsize
    have hnine := nineBytes_eq hsame hsize (Nat.lt_of_not_le hview)
    have hmissing := ofBe_lt ((b.drop req).take (idEnd buf p + 9 - req))
    rw [Buf.length_take] at hmissing
    rw [chankRound_of_nine b hreq (by rw [hidSame, getChank_id]; exact hid)
      (Nat.le_of_lt hp) (by rw [hend, ← hbyte]; exact not_not.mp hmarked) rfl
      (by rw [hend]; exact Nat.lt_of_not_le hview), hend, hnine, Nat.mod_eq_of_lt (by omega),
      if_pos (by omega)]
  · simp only [List.mem_cons, List.not_mem_nil, or_false, not_or] at hid
    exact headerDecided_of_id hidIn (by rw [getChank_id]; exact hid.1)
      (by rw [getChank_id]; exact hid.2)

theorem not_headerDecided_of_canBe (hreq : req < 2 ^ 16) (hp : p < req) (hcut : req < idEnd buf p)
    {id : Nat} (hwalked : id ∈ walkedIds) (hcan : IdCanBe buf req p id) :
    ¬ HeaderDecided buf req p := by
  intro hdecided
  obtain ⟨hlength, hbegins⟩ := hcan
  have hprefix := hbegins.trans
    (List.prefix_append (toBe 4 id) (0 :: toBe 8 (2 ^ 64 - (idEnd buf p + 9))))
  have hbounds : ∀ x ∈ walkedIds, x < 2 ^ 32 := by decide
  have hid := getChank_id_of_put hp (hbounds id hwalked) hlength hprefix
  have hsame := put_same hprefix
  have hfield := (Buf.holds_append.mp (Buf.put_holds buf (idEnd buf p - 4)
    (toBe 4 id ++ 0 :: toBe 8 (2 ^ 64 - (idEnd buf p + 9))))).2
  obtain ⟨b, hb, hleaves⟩ := exists_leaves_of_cut hcut
  have hround := (hdecided _ hsame).trans ((hdecided b hb).symm.trans hleaves)
  generalize buf.put (idEnd buf p - 4)
    (toBe 4 id ++ 0 :: toBe 8 (2 ^ 64 - (idEnd buf p + 9))) = a at *
  have hend : idEnd a p = idEnd buf p := idEnd_same hp hsame
  simp only [walkedIds, List.mem_cons, List.not_mem_nil, or_false] at hwalked
  by_cases hends : id = clusterId ∨ id = cueId
  · rw [chankRound, if_pos (hid ▸ hends)] at hround
    cases hround
  · -- a size behind it that takes the walk back to the start of the window
    have helement : id = timecodeId ∨ id = simpleblockId := by tauto
    rw [length_toBe, Buf.drop_drop, show idEnd buf p - 4 + 4 = idEnd buf p by
      rw [idEnd]; omega] at hfield
    obtain ⟨hzero, hsize⟩ := Buf.holds_cons.mp hfield
    have hnine := Buf.holds_take.mp hsize
    rw [length_toBe, Buf.drop_drop] at hnine
    have hlength' := markerLength_le (buf p)
    have hsmall : idEnd buf p + 9 < 2 ^ 64 := by
      rw [idEnd]
      omega
    rw [chankRound_of_nine a hreq (by
      rw [hid]
      simpa using helement) (Nat.le_of_lt hp) (by rw [hend]; exact hzero)
      (by rw [hend, hnine, ofBe_toBe_of_lt (by omega)]) (by rw [hend]; omega), hend,
      Nat.add_sub_cancel' (Nat.le_of_lt hsmall), Nat.mod_self, if_neg (Nat.not_lt_zero _)] at hround
    cases hround

theorem not_headerDecided_of_idAtEnd (hreq : req < 2 ^ 16)
    (hid : (getEBMLID (buf.drop p)).1 ∈ [timecodeId, simpleblockId]) (hend : idEnd buf p = req) :
    ¬ HeaderDecided buf req p := by
  intro hdecided
  obtain ⟨a, ha, hgo⟩ := exists_behind hreq hid hend (d := 2 ^ 64 - (req + 9)) (by omega)
  obtain ⟨b, hb, hstop⟩ := exists_behind hreq hid hend (d := 0) (by omega)
  obtain ⟨status, hgoes⟩ := hgo.goesOn (t := 0) (by omega) (Nat.zero_le _)
  rw [hdecided a ha, ← hdecided b hb, hstop.leaves (by omega) (by omega)] at hgoes
  cases hgoes

theorem not_headerDecided_of_wraps (hreq : req < 2 ^ 16) (hp : p ≤ req)
    (hid : (getEBMLID (buf.drop p)).1 ∈ [timecodeId, simpleblockId]) (hsize : idEnd buf p < req)
    (hzero : buf (idEnd buf p) = 0) (hcut : req < idEnd buf p + 9)
    (hwraps : 2 ^ 64 < idEnd buf p + 9 + leastSize buf req p + 256 ^ (idEnd buf p + 9 - req)) :
    ¬ HeaderDecided buf req p := by
  intro hdecided
  have hround : ∀ x, x < 256 ^ (idEnd buf p + 9 - req) →
      StepsTo buf req p (idEnd buf p + 9 + leastSize buf req p + x) := by
    intro x hx
    obtain ⟨b, hsame, status, hround⟩ := exists_missing hreq hp hid hsize hzero hcut hx
    exact ⟨status, (hdecided b hsame).symm.trans hround⟩
  have hmany : idEnd buf p + 9 - req < 256 ^ (idEnd buf p + 9 - req) :=
    Nat.lt_pow_self (by decide)
  have hbelow := leastSize_add_le hsize hcut
  by_cases hleast : 2 ^ 64 ≤ idEnd buf p + 9 + leastSize buf req p
  · -- two values that wrap take the walk to two places
    obtain ⟨t, ht⟩ := Nat.exists_eq_add_of_le hleast
    obtain ⟨status, hfirst⟩ := (hround 0 (by omega)).goesOn (t := t) (by omega) (by omega)
    obtain ⟨status', hsecond⟩ := hround 1 (by omega)
    rw [hfirst, ht, show (2 ^ 64 + t + 1) % 2 ^ 64 = t + 1 by omega] at hsecond
    split at hsecond
    · cases hsecond
    · injection hsecond with _ htotal
      omega
  · -- the least value does not wrap, and another does
    obtain ⟨status, hgoes⟩ := (hround (2 ^ 64 - (idEnd buf p + 9 + leastSize buf req p))
      (by omega)).goesOn (t := 0) (by omega) (Nat.zero_le _)
    rw [(hround 0 (by omega)).leaves (by omega) (by omega)] at hgoes
    cases hgoes

theorem headerShown_of_decided (hreq : req < 2 ^ 16) (hp : p ≤ req)
    (hdecided : HeaderDecided buf req p) : HeaderShown buf req p := by
  unfold HeaderShown
  have hlt : p < req := by
    refine Nat.lt_of_le_of_ne hp fun hend => ?_
    rw [hend] at hdecided
    exact not_headerDecided_of_end hdecided
  by_cases hcut : req < idEnd buf p
  · rw [if_pos hcut]
    exact ⟨hlt, fun id hid hcan => not_headerDecided_of_canBe hreq hlt hcut hid hcan hdecided⟩
  rw [if_neg hcut, or_iff_not_imp_left]
  intro hid
  have hmem := not_not.mp hid
  have hsize : idEnd buf p < req := by
    refine Nat.lt_of_le_of_ne (Nat.le_of_not_lt hcut) fun hend => ?_
    exact not_headerDecided_of_idAtEnd hreq hmem hend hdecided
  refine ⟨hsize, ?_⟩
  by_contra hopen
  simp only [not_or, ne_eq, not_not, Nat.not_le] at hopen
  exact not_headerDecided_of_wraps hreq hp hmem hsize hopen.1 hopen.2.1 hopen.2.2 hdecided

theorem headerShown_iff_decided (hreq : req < 2 ^ 16) (hp : p ≤ req) :
    HeaderShown buf req p ↔ HeaderDecided buf req p :=
  ⟨headerDecided_of_shown hreq, headerShown_of_decided hreq hp⟩

/-- A header at which the walk goes on whatever lies behind the window, and not to one place. -/
theorem wrapsAt_of_goesOn (hreq : req < 2 ^ 16) (hp : p ≤ req)
    (hopen : ¬ HeaderDecided buf req p)
    (hall : ∀ b, Region.Same buf b ⟨0, req⟩ → (chankWalk b req).goesOn p) :
    WrapsAt buf req p := by
  have hid : (getEBMLID (buf.drop p)).1 ∈ [timecodeId, simpleblockId] := by
    have helement := (hall buf fun _ _ => rfl).1
    rw [getChank_id] at helement
    simpa using helement
  have hstop : ∀ b, Region.Same buf b ⟨0, req⟩ → chankRound b req p ≠ .leaves := by
    intro b hsame hleaves
    obtain ⟨status, hgoes⟩ := chankRound_of_goesOn (hall b hsame)
    rw [hleaves] at hgoes
    cases hgoes
  have hidIn : idEnd buf p ≤ req := by
    by_contra hcut
    obtain ⟨b, hsame, hleaves⟩ := exists_leaves_of_cut (Nat.lt_of_not_le hcut)
    exact hstop b hsame hleaves
  have hsize : idEnd buf p < req := by
    refine Nat.lt_of_le_of_ne hidIn fun hend => ?_
    obtain ⟨b, hsame, hsteps⟩ := exists_behind hreq hid hend (d := 0) (by omega)
    exact hstop b hsame (hsteps.leaves (by omega) (by omega))
  have hzero : buf (idEnd buf p) = 0 := by
    by_contra hmarked
    exact hopen (headerDecided_of_size hreq hsize hmarked)
  have hcut : req < idEnd buf p + 9 := by
    by_contra hview
    exact hopen (headerDecided_of_inView
      (getChank_dataHeaderPosition_le.trans (Nat.le_of_not_lt hview)))
  have hle : ∀ x, x < 256 ^ (idEnd buf p + 9 - req) →
      (idEnd buf p + 9 + leastSize buf req p + x) % 2 ^ 64 ≤ req := by
    intro x hx
    obtain ⟨b, hsame, hsteps⟩ := exists_missing hreq hp hid hsize hzero hcut hx
    exact hsteps.le (hall b hsame)
  have hmany : idEnd buf p + 9 - req < 256 ^ (idEnd buf p + 9 - req) :=
    Nat.lt_pow_self (by decide)
  have hbelow := leastSize_add_le hsize hcut
  have hleast := hle 0 (by omega)
  have hgreatest := hle (256 ^ (idEnd buf p + 9 - req) - 1) (by omega)
  exact ⟨hid, ⟨hsize, hzero⟩, hcut, by omega, by omega⟩

end Shown

/-! ## Decided results -/

/-- No byte behind the window changes the result. -/
def WindowDecides (block : Block) (buf : Buf) (req : UInt16) : Prop :=
  ∀ buf', Region.Same buf buf' ⟨0, req.toNat⟩ →
    getChankByBytes block buf' req = getChankByBytes block buf req

/-- Whatever lies behind the window, the walk comes to `p` after `rounds` rounds with this
status. -/
def ComesTo (buf : Buf) (req p : Nat) : Prop :=
  ∃ rounds status, status ≠ clusterEnd ∧ ∀ buf', Region.Same buf buf' ⟨0, req⟩ → ∀ fuel,
    getChankByBytesLoop buf' req (rounds + fuel) 0 0 =
      getChankByBytesLoop buf' req fuel p status

theorem ComesTo.start (buf : Buf) (req : Nat) : ComesTo buf req 0 :=
  ⟨0, 0, by decide, fun _ _ fuel => by rw [Nat.zero_add]⟩

theorem ComesTo.next {buf : Buf} {req p : Nat} (h : ComesTo buf req p)
    (hdecided : HeaderDecided buf req p) (hgo : (chankWalk buf req).goesOn p) :
    ComesTo buf req ((chankWalk buf req).next p) := by
  obtain ⟨rounds, status, -, hwalk⟩ := h
  obtain ⟨status', hround⟩ := chankRound_of_goesOn hgo
  refine ⟨rounds + 1, status', status_of_chankRound hround, fun buf' hsame fuel => ?_⟩
  rw [Nat.add_assoc, Nat.add_comm 1, hwalk buf' hsame, getChankByBytesLoop_succ,
    hdecided buf' hsame, hround]

/-- The walk comes to a header whatever lies behind the window, or to an earlier one that is
not decided. -/
theorem comesTo_of_reached {buf : Buf} {req p : Nat} (h : (chankWalk buf req).Reached p) :
    ComesTo buf req p ∨ ∃ q, (chankWalk buf req).Reached q ∧ ComesTo buf req q ∧
      ¬ HeaderDecided buf req q := by
  induction h with
  | refl => exact .inl (.start buf req)
  | @tail q _ hreached hstep ih =>
      obtain ⟨hgo, rfl⟩ := hstep
      rcases ih with hcomes | hbefore
      · by_cases hdecided : HeaderDecided buf req q
        · exact .inl (hcomes.next hdecided hgo)
        · exact .inr ⟨q, hreached, hcomes, hdecided⟩
      · exact .inr hbefore

/-- The bytes of the window show what the walk does at every header that it comes to. -/
def HeadersShown (buf : Buf) (req : Nat) : Prop :=
  ∀ p, (chankWalk buf req).Reached p → HeaderShown buf req p

/-- What the window shows does not depend on what lies behind it. -/
theorem HeadersShown.same {buf buf' : Buf} {req : Nat} (hreq : req < 2 ^ 16)
    (h : HeadersShown buf req) (hsame : Region.Same buf buf' ⟨0, req⟩) :
    HeadersShown buf' req := by
  have hreached : ∀ p, (chankWalk buf' req).Reached p → (chankWalk buf req).Reached p := by
    intro p hp
    induction hp with
    | refl => exact .refl
    | @tail q _ _ hstep ih =>
        obtain ⟨hgo, rfl⟩ := hstep
        obtain ⟨status, hround⟩ := chankRound_of_goesOn hgo
        rw [headerDecided_of_shown hreq (h q ih) buf' hsame] at hround
        exact ih.tail (goesOn_of_chankRound hround)
  intro p hp
  have hdecided := headerDecided_of_shown hreq (h p (hreached p hp))
  refine headerShown_of_decided hreq (chankWalk_reached_le hp) fun b hb => ?_
  rw [hdecided b fun i hi => (hsame i hi).trans (hb i hi), hdecided buf' hsame]

/-- The walk comes to a header that is cut by the window, and goes on whatever lies behind it: the
bytes that are missing say where to. -/
def WrapsAnyhow (buf : Buf) (req : Nat) : Prop :=
  ∃ p, (chankWalk buf req).Reached p ∧ WrapsAt buf req p

theorem left_of_comesTo {buf : Buf} {req : UInt16} {p : Nat} (h : ComesTo buf req.toNat p) :
    ∃ status, status ≠ clusterEnd ∧ ∀ buf', Region.Same buf buf' ⟨0, req.toNat⟩ →
      (chankRound buf' req.toNat p = .ends →
        getChankByBytesLoop buf' req.toNat (req.toNat + 2) 0 0 = some (clusterEnd, p)) ∧
      (chankRound buf' req.toNat p = .leaves →
        getChankByBytesLoop buf' req.toNat (req.toNat + 2) 0 0 = some (status, p)) := by
  obtain ⟨rounds, status, hstatus, hwalk⟩ := h
  exact ⟨status, hstatus, fun buf' hsame => left_of_rounds (hwalk buf' hsame 1)⟩

/-- Of two walks that come to `p` and have one result, one that stops there shows what the other
does. -/
theorem chankRound_eq_of_left {buf a b : Buf} {req : UInt16} {p : Nat}
    (hcomes : ComesTo buf req.toNat p) (ha : Region.Same buf a ⟨0, req.toNat⟩)
    (hb : Region.Same buf b ⟨0, req.toNat⟩) (hstops : ¬ (chankWalk a req.toNat).goesOn p)
    (hloop : getChankByBytesLoop b req.toNat (req.toNat + 2) 0 0 =
      getChankByBytesLoop a req.toNat (req.toNat + 2) 0 0) :
    chankRound b req.toNat p = chankRound a req.toNat p := by
  obtain ⟨status, hstatus, hleft⟩ := left_of_comesTo hcomes
  obtain ⟨haEnds, haLeaves⟩ := hleft a ha
  obtain ⟨hbEnds, hbLeaves⟩ := hleft b hb
  cases hroundA : chankRound a req.toNat p with
  | goesOn st t => exact absurd (goesOn_of_chankRound hroundA).1 hstops
  | ends =>
      rw [haEnds hroundA] at hloop
      cases hroundB : chankRound b req.toNat p with
      | ends => rfl
      | leaves =>
          rw [hbLeaves hroundB] at hloop
          cases hloop
          exact absurd rfl hstatus
      | goesOn st t => exact absurd (goesOn_of_chankRound hroundB).1 (not_goesOn_of_left hloop)
  | leaves =>
      rw [haLeaves hroundA] at hloop
      cases hroundB : chankRound b req.toNat p with
      | ends =>
          rw [hbEnds hroundB] at hloop
          cases hloop
          exact absurd rfl hstatus
      | leaves => rfl
      | goesOn st t => exact absurd (goesOn_of_chankRound hroundB).1 (not_goesOn_of_left hloop)

theorem windowDecides_of_headersShown {block : Block} {buf : Buf} {req : UInt16}
    (hshown : HeadersShown buf req.toNat) : WindowDecides block buf req := by
  intro buf' hsame
  rw [getChankByBytes_eq_iff]
  have hloop : ∀ fuel p status, (chankWalk buf req.toNat).Reached p →
      getChankByBytesLoop buf' req.toNat fuel p status =
        getChankByBytesLoop buf req.toNat fuel p status := by
    intro fuel
    induction fuel with
    | zero => exact fun _ _ _ => rfl
    | succ fuel ih =>
        intro p status hreached
        have hround := headerDecided_of_shown req.toNat_lt (hshown p hreached) buf' hsame
        rw [getChankByBytesLoop_succ, getChankByBytesLoop_succ, hround]
        cases hround : chankRound buf req.toNat p with
        | ends => rfl
        | leaves => rfl
        | goesOn status' total => exact ih _ _ (hreached.tail (goesOn_of_chankRound hround))
  exact hloop _ _ _ .refl

theorem headersShown_of_windowDecides {block : Block} {buf : Buf} {req : UInt16}
    (hwindow : WindowDecides block buf req) (hwraps : ¬ WrapsAnyhow buf req.toNat) :
    HeadersShown buf req.toNat := by
  intro p hreached
  refine headerShown_of_decided req.toNat_lt (chankWalk_reached_le hreached) ?_
  by_contra hundecided
  obtain ⟨q, hq, hcomes, hopen⟩ : ∃ q, (chankWalk buf req.toNat).Reached q ∧
      ComesTo buf req.toNat q ∧ ¬ HeaderDecided buf req.toNat q := by
    rcases comesTo_of_reached hreached with hcomes | hbefore
    · exact ⟨p, hreached, hcomes, hundecided⟩
    · exact hbefore
  -- some bytes behind the window stop the walk at the open header
  obtain ⟨d, hd, hstops⟩ : ∃ d, Region.Same buf d ⟨0, req.toNat⟩ ∧
      ¬ (chankWalk d req.toNat).goesOn q := by
    by_contra hall
    push Not at hall
    exact hwraps ⟨q, hq, wrapsAt_of_goesOn req.toNat_lt (chankWalk_reached_le hq) hopen hall⟩
  have hround : ∀ e, Region.Same buf e ⟨0, req.toNat⟩ →
      chankRound e req.toNat q = chankRound d req.toNat q := fun e he =>
    chankRound_eq_of_left hcomes hd he hstops
      (((getChankByBytes_eq_iff.mp (hwindow e he))).trans
        (getChankByBytes_eq_iff.mp (hwindow d hd)).symm)
  exact hopen fun e he => (hround e he).trans (hround buf fun _ _ => rfl).symm

/-- The status and the bytes counted do not depend on what lies behind the window when its bytes
show what the walk does at every header that it comes to; and if they do not, that is why, or the
walk goes on at a cut header whatever lies behind. -/
theorem windowDecides_iff (block : Block) (buf : Buf) (req : UInt16) :
    (HeadersShown buf req.toNat → WindowDecides block buf req) ∧
      (WindowDecides block buf req → HeadersShown buf req.toNat ∨ WrapsAnyhow buf req.toNat) :=
  ⟨windowDecides_of_headersShown, fun hwindow =>
    or_iff_not_imp_right.mpr fun hwraps => headersShown_of_windowDecides hwindow hwraps⟩

/-- A SimpleBlock of 1000 bytes, which fills the window. -/
def fullWindow : Buf := Buf.zero.overlay [0xa3, 0x43, 0xe5]

/-- The window shows its one header, and not the one behind it. -/
example : HeaderShown fullWindow 1000 0 ∧ ¬ HeaderShown fullWindow 1000 1000 := by decide +kernel

/-- Behind it, memory that holds a Cluster id. -/
def fullWindowCluster : Buf := fullWindow.put 1000 (toBe 4 clusterId)

/-- Two windows of 1000 equal bytes: one block is told to go on, the other ends its cluster. -/
theorem fullWindow_undecided :
    Region.Same fullWindow fullWindowCluster ⟨0, 1000⟩ ∧
      (getChankByBytes initBlock fullWindow 1000).map (·.2) = some 1 ∧
      (getChankByBytes initBlock fullWindowCluster 1000).map (·.2) = some clusterEnd ∧
      ¬ WindowDecides initBlock fullWindow 1000 := by
  have hsame : Region.Same fullWindow fullWindowCluster ⟨0, 1000⟩ := by
    intro i hi
    have hi' : 0 + i < 1000 := by
      rw [Nat.zero_add]
      exact hi
    exact (if_neg fun h => absurd h.1 (Nat.not_le_of_lt hi')).symm
  have hgoes : (getChankByBytes initBlock fullWindow 1000).map (·.2) = some 1 := by decide +kernel
  have hends : (getChankByBytes initBlock fullWindowCluster 1000).map (·.2) = some clusterEnd := by
    decide +kernel
  refine ⟨hsame, hgoes, hends, fun h => ?_⟩
  rw [h fullWindowCluster hsame, hgoes] at hends
  cases hends

end P2PStream
