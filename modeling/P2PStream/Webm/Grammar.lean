/-
# `P2PStream.Webm.Grammar` — the headers that `AnalyzeChankToWebMHeader` accepts

A header is an EBML element, the header of a Segment, and the elements that stand in the
Segment in front of its first Cluster.  The analysis goes into a Segment of known size,
whatever that size is, and steps over one of unknown size, which `GetChank` reads as a
header with no data: either way it comes to the first element inside.

One lemma takes a part of a header, of either kind, and the runs follow by induction.
-/
import P2PStream.Webm.Header

namespace P2PStream

open Lib

/-! ## The grammar -/

/-- The header of a Segment: a size that is not zero, in any width.  In eight bytes the size may be
the unknown one. -/
structure SegmentHeader where
  width : Nat
  size : Nat
  width_pos : 0 < width
  width_le : width ≤ 8
  size_lt : size < 2 ^ (7 * width)
  size_ne_zero : size ≠ 0

def SegmentHeader.bytes (s : SegmentHeader) : List UInt8 := toBe 4 segmentId ++ vint s.width s.size

/-- The Segment of an encoder that does not know how much it will write. -/
def SegmentHeader.unknown : SegmentHeader :=
  ⟨8, unknownSize, by decide, by decide, by decide, by decide⟩

/-- What the analysis steps over in one round. -/
inductive HeaderPart where
  | element (e : Element)
  | segment (s : SegmentHeader)

namespace HeaderPart

def bytes : HeaderPart → List UInt8
  | .element e => e.bytes
  | .segment s => s.bytes

/-- An element that the analysis knows and does not look into. -/
def IsKnown : HeaderPart → Prop
  | .element e => e.id ∈ headerIds ∧ e.id ≠ segmentId
  | .segment _ => True

end HeaderPart

def partsBytes (parts : List HeaderPart) : List UInt8 := parts.flatMap HeaderPart.bytes

/-- A WebM header up to its first Cluster. -/
structure WebmHeader where
  ebml : Element
  segment : SegmentHeader
  elements : List Element
  ebml_id : ebml.id = ebmlId
  elements_id : ∀ e ∈ elements, e.id ∈ [seekheadId, voidId, infoId, tracksId]

namespace WebmHeader

variable (h : WebmHeader)

def parts : List HeaderPart := .element h.ebml :: .segment h.segment :: h.elements.map .element

def bytes : List UInt8 := partsBytes h.parts

theorem isKnown_of_mem {part : HeaderPart} (hpart : part ∈ h.parts) : part.IsKnown := by
  simp only [parts, List.mem_cons, List.mem_map] at hpart
  rcases hpart with rfl | rfl | ⟨e, he, rfl⟩
  · rw [HeaderPart.IsKnown, h.ebml_id]
    decide
  · trivial
  · have hids : ∀ id ∈ [seekheadId, voidId, infoId, tracksId], id ∈ headerIds ∧ id ≠ segmentId := by
      decide
    exact hids _ (h.elements_id e he)

end WebmHeader

/-! ## One part -/

section Part

variable {buf : Buf} {totalFileBytes : Int} {total : Nat}

theorem SegmentHeader.length_bytes (s : SegmentHeader) : s.bytes.length = 4 + s.width := by
  rw [SegmentHeader.bytes, List.length_append, length_toBe, length_vint]

/-- A Segment is gone into, or stepped over when its size is unknown. -/
theorem analyzeLoop_segment (fuel : Nat) (s : SegmentHeader)
    (h : (buf.drop total).Holds s.bytes) (hsize : s.bytes.length ≤ asU64 totalFileBytes)
    (hlt : total + s.bytes.length < 2 ^ 64) :
    analyzeLoop buf totalFileBytes (fuel + 1) total =
      analyzeLoop buf totalFileBytes fuel (total + s.bytes.length) := by
  have hid : toBe 4 segmentId = vint 4 (segmentId - 2 ^ 28) := by decide
  have hsum : 2 ^ (7 * 4) + (segmentId - 2 ^ 28) = segmentId := by decide
  have hhead : buf total ≠ 0 := by
    have hfirst := h 0 (by rw [s.length_bytes]; omega)
    rw [Buf.drop_apply, Nat.add_zero] at hfirst
    rw [hfirst]
    show (0x18 : UInt8) ≠ 0
    decide
  rw [s.length_bytes] at hsize hlt ⊢
  rw [SegmentHeader.bytes, hid] at h
  rw [analyzeLoop, if_neg hhead]
  by_cases hunknown : s.size = unknownSize
  · have hwidth : s.width = 8 := by
      by_contra hne
      have hle : s.width ≤ 7 := by have := s.width_le; omega
      have hpow : 2 ^ (7 * s.width) ≤ 2 ^ (7 * 7) := Nat.pow_le_pow_right (by decide) (by omega)
      have hmax : 2 ^ (7 * 7) < unknownSize := by decide
      have hsize := s.size_lt
      omega
    rw [hunknown, hwidth] at h
    have hknown : segmentId ∈ headerIds := by decide
    have hcluster : segmentId ≠ clusterId := by decide
    rw [hwidth] at hsize hlt ⊢
    simp only [getChank_unknown (by decide) (le_refl 4) (by decide) h, hsum, ne_eq,
      not_true_eq_false, and_false, if_false, hcluster, hknown, if_neg (Nat.not_lt_of_le hsize),
      Nat.mod_eq_of_lt hlt]
  · simp only [getChank_header (by decide) (le_refl 4) (by decide) s.width_pos s.width_le s.size_lt
      hunknown h, hsum, ne_eq, s.size_ne_zero, not_false_eq_true, and_self, if_true,
      Nat.mod_eq_of_lt hlt]

theorem analyzeLoop_part (fuel : Nat) {part : HeaderPart} (hknown : part.IsKnown)
    (h : (buf.drop total).Holds part.bytes) (hsize : part.bytes.length ≤ asU64 totalFileBytes)
    (hlt : total + part.bytes.length < 2 ^ 64) :
    analyzeLoop buf totalFileBytes (fuel + 1) total =
      analyzeLoop buf totalFileBytes fuel (total + part.bytes.length) := by
  cases part with
  | element e =>
      exact analyzeLoop_element fuel hknown.1 hknown.2 (Buf.holds_append.mp h).1 hsize hlt
  | segment s => exact analyzeLoop_segment fuel s h hsize hlt

theorem analyzeLoop_unknown (fuel : Nat) {e : Element} (hid : e.id ∉ headerIds)
    (hcluster : e.id ≠ clusterId) (h : (buf.drop total).Holds e.header) :
    analyzeLoop buf totalFileBytes (fuel + 1) total = some (-2, total) := by
  have hhead : buf total ≠ 0 := by
    have hfirst := head_ne_zero_of_header h
    rwa [Buf.drop_apply, Nat.add_zero] at hfirst
  have hsegment : e.id ≠ segmentId := fun heq => hid (heq ▸ by decide)
  rw [analyzeLoop, if_neg hhead, getChank_element e h]
  simp only [hsegment, false_and, if_false, hcluster, hid, not_false_eq_true, if_true]

end Part

/-! ## The parts one after another -/

theorem partsBytes_cons (part : HeaderPart) (parts : List HeaderPart) :
    partsBytes (part :: parts) = part.bytes ++ partsBytes parts := List.flatMap_cons

theorem length_parts_le (parts : List HeaderPart) : parts.length ≤ (partsBytes parts).length := by
  have hpos : ∀ part : HeaderPart, 0 < part.bytes.length := by
    intro part
    cases part with
    | element e => exact List.length_pos_iff.mpr e.bytes_ne_nil
    | segment s =>
        rw [HeaderPart.bytes, s.length_bytes]
        omega
  induction parts with
  | nil => exact Nat.zero_le 0
  | cons part parts ih =>
      have := hpos part
      rw [partsBytes_cons, List.length_append, List.length_cons]
      omega

theorem analyzeLoop_parts {buf : Buf} {totalFileBytes : Int} {parts : List HeaderPart} (fuel : Nat)
    (hknown : ∀ part ∈ parts, part.IsKnown)
    (hsize : ∀ part ∈ parts, part.bytes.length ≤ asU64 totalFileBytes) :
    ∀ total, (buf.drop total).Holds (partsBytes parts) →
      total + (partsBytes parts).length < 2 ^ 64 →
      analyzeLoop buf totalFileBytes (fuel + parts.length) total =
        analyzeLoop buf totalFileBytes fuel (total + (partsBytes parts).length) := by
  induction parts with
  | nil => exact fun _ _ _ => rfl
  | cons part parts ih =>
      intro total h hlt
      rw [partsBytes_cons] at h hlt ⊢
      rw [List.length_append] at hlt ⊢
      obtain ⟨hpart, hparts⟩ := Buf.holds_append.mp h
      rw [Buf.drop_drop] at hparts
      have hstep := analyzeLoop_part (fuel + parts.length) (hknown part List.mem_cons_self) hpart
        (hsize part List.mem_cons_self) (by omega)
      rw [List.length_cons, ← Nat.add_assoc, hstep,
        ih (fun p hp => hknown p (List.mem_cons_of_mem _ hp))
          (fun p hp => hsize p (List.mem_cons_of_mem _ hp)) _ hparts (by omega), Nat.add_assoc]

/-- What stands behind the parts is come to with a round left for it. -/
theorem analyzeLoop_behind {buf : Buf} {totalFileBytes : Int} {parts : List HeaderPart}
    {result : Int × Nat} (hknown : ∀ part ∈ parts, part.IsKnown)
    (hsize : ∀ part ∈ parts, part.bytes.length ≤ asU64 totalFileBytes)
    (h : buf.Holds (partsBytes parts)) (hlt : (partsBytes parts).length < 2 ^ 64)
    (hbehind : ∀ fuel, analyzeLoop buf totalFileBytes (fuel + 1) (partsBytes parts).length =
      some result) :
    analyzeLoop buf totalFileBytes (2 ^ 64 + 1) 0 = some result := by
  have hlength := length_parts_le parts
  have hrounds : 2 ^ 64 + 1 = 2 ^ 64 - parts.length + 1 + parts.length := by omega
  rw [hrounds, analyzeLoop_parts _ hknown hsize 0 (by rwa [Buf.drop_zero]) (by omega), Nat.zero_add]
  exact hbehind _

/-! ## Headers -/

/-- For every header, with whatever elements in whatever order and widths, none of them longer than
the file: when the window holds it and the header of the Cluster behind it, the analysis succeeds
and `total_bytes` is where the Cluster starts; when the window shows an element with another id
anywhere in front of the Cluster, the analysis answers `-2` and sets nothing. -/
theorem analyzeChankToWebMHeader_header (h : WebmHeader) (buf : Buf) (w : Webm)
    (hsize : ∀ part ∈ h.parts, part.bytes.length ≤ asU64 w.totalFileBytes) :
    (∀ size : List UInt8, buf.Holds (h.bytes ++ (toBe 4 clusterId ++ size)) →
      (h.bytes ++ (toBe 4 clusterId ++ size)).length ≤ headerWindow →
      ∃ bytes : UInt16, bytes.toNat = h.bytes.length ∧
        analyzeChankToWebMHeader buf w = some ({ w with webmHeaderTotalBytes := bytes }, 1)) ∧
    (∀ (before : List HeaderPart) (e : Element), before <+: h.parts → e.id ∉ headerIds →
      e.id ≠ clusterId → buf.Holds (partsBytes before ++ e.header) →
      (partsBytes before ++ e.header).length ≤ headerWindow →
      analyzeChankToWebMHeader buf w = some (w, -2)) := by
  have hwindow : headerWindow = 1024 := rfl
  constructor
  · intro size hholds hview
    obtain ⟨hheader, hbehind⟩ := Buf.holds_append.mp hholds
    rw [List.length_append] at hview
    have hloop := analyzeLoop_behind (fun _ => h.isKnown_of_mem) hsize hheader
      (show h.bytes.length < 2 ^ 64 by omega)
      fun fuel => analyzeLoop_cluster fuel (Buf.holds_append.mp hbehind).1
    refine ⟨UInt16.ofNat h.bytes.length, ?_, analyzeChankToWebMHeader_of_loop hloop⟩
    rw [UInt16.toNat_ofNat_of_lt' (by simp only [UInt16.size]; omega)]
  · intro before e hbefore hid hcluster hholds hview
    obtain ⟨hparts, helement⟩ := Buf.holds_append.mp hholds
    rw [List.length_append] at hview
    have hloop := analyzeLoop_behind
      (fun part hpart => h.isKnown_of_mem (hbefore.subset hpart))
      (fun part hpart => hsize part (hbefore.subset hpart)) hparts (by omega)
      fun fuel => analyzeLoop_unknown fuel hid hcluster helement
    simp only [analyzeChankToWebMHeader, hloop, Option.bind_eq_bind, Option.bind_some]
    rfl

/-- An element without data, whose id has four bytes. -/
def emptyElement (idValue width : Nat) (hid : idValue < 2 ^ (7 * 4))
    (hwidth : 0 < width ∧ width ≤ 8) : Element where
  idWidth := 4
  idValue := idValue
  width := width
  data := []
  idWidth_pos := by decide
  idWidth_le := le_refl 4
  idValue_lt := hid
  width_pos := hwidth.1
  width_le := hwidth.2
  size_lt := by
    have hpow : 2 ^ (7 * 1) ≤ 2 ^ (7 * width) := Nat.pow_le_pow_right (by decide) (by omega)
    rw [List.length_nil]
    omega

/-- A header as an encoder of live video writes it: it does not know the size of its Segment. -/
def liveHeader : WebmHeader where
  ebml := emptyElement (ebmlId - 2 ^ 28) 1 (by decide) (by decide)
  segment := SegmentHeader.unknown
  elements := [emptyElement (infoId - 2 ^ 28) 2 (by decide) (by decide),
    emptyElement (tracksId - 2 ^ 28) 8 (by decide) (by decide)]
  ebml_id := rfl
  elements_id := by decide

/-- Tags: the analysis does not know them. -/
def tagsElement : Element := emptyElement (0x1254c367 - 2 ^ 28) 1 (by decide) (by decide)

theorem analyzeChankToWebMHeader_liveHeader :
    (∃ bytes : UInt16, bytes.toNat = 35 ∧
      analyzeChankToWebMHeader (Buf.zero.overlay (liveHeader.bytes ++ (toBe 4 clusterId ++ [0x80])))
        { Webm.start [] with totalFileBytes := 40 } =
      some ({ Webm.start [] with totalFileBytes := 40, webmHeaderTotalBytes := bytes }, 1)) ∧
    analyzeChankToWebMHeader
        (Buf.zero.overlay (partsBytes (liveHeader.parts.take 3) ++ tagsElement.header))
        { Webm.start [] with totalFileBytes := 40 } =
      some ({ Webm.start [] with totalFileBytes := 40 }, -2) := by
  have hsize : ∀ part ∈ liveHeader.parts, part.bytes.length ≤ asU64 40 := by decide
  have hlive := analyzeChankToWebMHeader_header liveHeader
  constructor
  · exact (hlive _ { Webm.start [] with totalFileBytes := 40 } hsize).1 [0x80]
      (Buf.overlay_holds _ _) (by decide)
  · exact (hlive _ { Webm.start [] with totalFileBytes := 40 } hsize).2 _ tagsElement
      (List.take_prefix _ _) (by decide) (by decide) (Buf.overlay_holds _ _) (by decide)

end P2PStream
