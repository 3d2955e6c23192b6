/-
# `P2PStream.Webm.Unknown` — elements that the walk does not know

`GetChankByBytes` knows four ids.  The branch for every other id breaks off before it
gets to `status = -1`, so that a walk that comes to such an element answers with the
status of the elements in front of it: 0 when there are none, and 0 stands for "too
large for the window".  `GetNextBlockByBytes` then cuts the element into pieces, and
the first piece is a whole window however short the element is.

The elements here have any id and any size, and a window may cut the last of them.
-/
import P2PStream.Webm.Pieces

namespace P2PStream

open Lib

/-! ## What the walk goes over -/

/-- An element that the walk counts. -/
def IsCounted (e : Element) : Prop := e.id = timecodeId ∨ e.id = simpleblockId

/-- An element that ends the cluster. -/
def IsEnding (e : Element) : Prop := e.id = clusterId ∨ e.id = cueId

/-- An element with none of the four ids. -/
def IsUnknown (e : Element) : Prop := ¬ IsCounted e ∧ ¬ IsEnding e

instance : DecidablePred IsCounted := fun e =>
  inferInstanceAs (Decidable (e.id = timecodeId ∨ e.id = simpleblockId))

instance : DecidablePred IsEnding := fun e =>
  inferInstanceAs (Decidable (e.id = clusterId ∨ e.id = cueId))

/-- The elements that a window of `r` bytes lets the walk count. -/
def walked : Nat → List Element → List Element
  | _, [] => []
  | r, e :: es =>
      if IsCounted e ∧ e.bytes.length ≤ r then e :: walked (r - e.bytes.length) es else []

/-- The elements behind them. -/
def unwalked (r : Nat) (es : List Element) : List Element := es.drop (walked r es).length

/-- The status that the elements counted leave. -/
def walkStatus (status : Int) (done : List Element) : Int :=
  done.foldl (fun _ e => if e.id = timecodeId then onlyTimecode else 1) status

/-- Behind the elements counted the cluster ends, and the window shows the id that ends it. -/
def Ended (r : Nat) (es : List Element) : Prop :=
  (∀ e ∈ (unwalked r es).head?, IsEnding e) ∧ (payload (walked r es)).length + 4 ≤ r

instance (r : Nat) (es : List Element) : Decidable (Ended r es) :=
  inferInstanceAs (Decidable (_ ∧ _))

section Walked

variable {r : Nat} {e : Element} {es : List Element}

theorem walked_fits (he : IsCounted e) (hfit : e.bytes.length ≤ r) :
    walked r (e :: es) = e :: walked (r - e.bytes.length) es := by
  rw [walked, if_pos ⟨he, hfit⟩]

theorem walked_stop (h : ¬ (IsCounted e ∧ e.bytes.length ≤ r)) : walked r (e :: es) = [] := by
  rw [walked, if_neg h]

theorem unwalked_fits (he : IsCounted e) (hfit : e.bytes.length ≤ r) :
    unwalked r (e :: es) = unwalked (r - e.bytes.length) es := by
  rw [unwalked, walked_fits he hfit]
  rfl

theorem unwalked_of_nil (h : walked r es = []) : unwalked r es = es := by
  rw [unwalked, h]
  rfl

theorem walked_append_unwalked (r : Nat) (es : List Element) :
    walked r es ++ unwalked r es = es := by
  induction es generalizing r with
  | nil => rfl
  | cons e es ih =>
      by_cases h : IsCounted e ∧ e.bytes.length ≤ r
      · rw [walked_fits h.1 h.2, unwalked_fits h.1 h.2, List.cons_append, ih]
      · rw [walked_stop h, unwalked_of_nil (walked_stop h), List.nil_append]

theorem length_walked_le (r : Nat) (es : List Element) : (payload (walked r es)).length ≤ r := by
  induction es generalizing r with
  | nil => exact Nat.zero_le r
  | cons e es ih =>
      by_cases h : IsCounted e ∧ e.bytes.length ≤ r
      · have := ih (r - e.bytes.length)
        rw [walked_fits h.1 h.2, payload_cons, List.length_append]
        omega
      · rw [walked_stop h]
        exact Nat.zero_le r

theorem ended_fits (he : IsCounted e) (hfit : e.bytes.length ≤ r) :
    Ended r (e :: es) ↔ Ended (r - e.bytes.length) es := by
  rw [Ended, Ended, unwalked_fits he hfit, walked_fits he hfit, payload_cons, List.length_append]
  refine and_congr_right fun _ => ?_
  omega

theorem ended_of_nil (h : walked r es = []) :
    Ended r es ↔ (∀ e ∈ es.head?, IsEnding e) ∧ 4 ≤ r := by
  rw [Ended, unwalked_of_nil h, h, payload_nil, List.length_nil, Nat.zero_add]

theorem walked_counted : ∀ e ∈ walked r es, IsCounted e := by
  induction es generalizing r with
  | nil =>
      intro e he
      cases he
  | cons f es ih =>
      intro e he
      by_cases h : IsCounted f ∧ f.bytes.length ≤ r
      · rw [walked_fits h.1 h.2] at he
        rcases List.mem_cons.mp he with rfl | he
        · exact h.1
        · exact ih e he
      · rw [walked_stop h] at he
        cases he

/-- Whole elements that are counted are all walked, up to one that is not. -/
theorem walked_append {done rest : List Element} (hdone : ∀ d ∈ done, IsCounted d)
    (hfit : (payload done).length ≤ r) :
    walked r (done ++ rest) = done ++ walked (r - (payload done).length) rest := by
  induction done generalizing r with
  | nil => rfl
  | cons d done ih =>
      rw [payload_cons, List.length_append] at hfit
      rw [List.cons_append, walked_fits (hdone d List.mem_cons_self) (by omega),
        ih (fun x hx => hdone x (List.mem_cons_of_mem _ hx)) (by omega), payload_cons,
        List.length_append, Nat.sub_sub, List.cons_append]

end Walked

/-! ## The status -/

section Status

variable {done : List Element}

theorem walkStatus_pos (h : done ≠ []) (status : Int) : 0 < walkStatus status done := by
  have hpos : ∀ e : Element, (0 : Int) < if e.id = timecodeId then onlyTimecode else 1 := by
    intro e
    split <;> decide
  induction done generalizing status with
  | nil => exact absurd rfl h
  | cons e done ih =>
      cases done with
      | nil => exact hpos e
      | cons f done =>
          exact ih (List.cons_ne_nil f done) (if e.id = timecodeId then onlyTimecode else 1)

theorem walkStatus_nonneg (done : List Element) : 0 ≤ walkStatus 0 done := by
  by_cases h : done = []
  · rw [h]
    exact le_refl 0
  · exact (walkStatus_pos h 0).le

theorem walkStatus_eq_zero : walkStatus 0 done = 0 ↔ done = [] := by
  constructor
  · intro h
    by_contra hne
    have := walkStatus_pos hne 0
    omega
  · rintro rfl
    rfl

end Status

/-! ## The walk over any elements -/

theorem IsEnding.isStop {e : Element} (h : IsEnding e) (y : List UInt8) :
    IsStop (e.bytes ++ y) := by
  have hwidth : e.idWidth = 4 := by
    have hlt := e.idValue_lt
    have hle := e.idWidth_le
    have hid : 2 ^ (7 * e.idWidth) + e.idValue = clusterId ∨
      2 ^ (7 * e.idWidth) + e.idValue = cueId := h
    by_contra hne
    have hpow : 2 ^ (7 * e.idWidth) ≤ 2 ^ 21 := Nat.pow_le_pow_right (by decide) (by omega)
    have : 2 ^ 22 < clusterId ∧ 2 ^ 22 < cueId := by decide
    omega
  have hbytes : e.bytes ++ y = toBe 4 e.id ++ (vint e.width e.data.length ++ (e.data ++ y)) := by
    simp only [Element.bytes, Element.header, vint, Element.id, hwidth, List.append_assoc]
  rw [hbytes]
  rcases h with h | h
  · exact Or.inl ⟨_, by rw [h]⟩
  · exact Or.inr ⟨_, by rw [h]⟩

/-- At an element that is complete and that it does not know, the walk breaks off. -/
theorem walk_unknown {b : Buf} {e : Element} {y : List UInt8} {req total r : Nat} (fuel : Nat)
    (status : Int) (he : IsUnknown e) (hr : total + r = req) (hreq : req < 2 ^ 16)
    (h : Window (b.drop total) (e.bytes ++ y) r) (hfit : e.bytes.length ≤ r) :
    getChankByBytesLoop b req (fuel + 1) total status = some (status, total) := by
  have hheader : (b.drop total).Holds e.header := by
    have hlen := e.length_bytes
    rw [Element.bytes, List.append_assoc] at h
    exact h.holds (by rw [e.length_header]; omega)
  obtain ⟨hcounted, hending⟩ := he
  rw [IsCounted, not_or] at hcounted
  rw [IsEnding, not_or] at hending
  have hfits : ¬ req < (total + e.bytes.length) % 2 ^ 64 := by
    rw [Nat.mod_eq_of_lt (by omega)]
    omega
  rw [getChankByBytesLoop, getChank_element e hheader]
  simp only [if_neg hending.1, if_neg hending.2, if_neg hfits, if_neg hcounted.1,
    if_neg hcounted.2]

/-- The walk counts what it can, and answers with the end of the cluster or with the status
of what it counted. -/
theorem walk_elements {b : Buf} {stop : List UInt8} (hstop : IsStop stop) {req : Nat}
    (hreq : req < 2 ^ 16) (es : List Element) :
    ∀ (total r fuel : Nat) (status : Int), total + r = req → r < fuel →
      Window (b.drop total) (payload es ++ stop) r →
      getChankByBytesLoop b req fuel total status =
        some (if Ended r es then clusterEnd else walkStatus status (walked r es),
          total + (payload (walked r es)).length) := by
  induction es with
  | nil =>
      intro total r fuel status hr hfuel hw
      obtain ⟨fuel, rfl⟩ : ∃ k, fuel = k + 1 := ⟨fuel - 1, by omega⟩
      have hended : Ended r [] ↔ 4 ≤ r := by
        rw [ended_of_nil rfl]
        exact and_iff_right (by simp)
      rw [payload_nil, List.nil_append] at hw
      by_cases hview : 4 ≤ r
      · have hlen : 4 ≤ stop.length := by
          rcases hstop with hp | hp <;> simpa using hp.length_le
        rw [← List.take_append_drop 4 stop] at hw
        rw [if_pos (hended.mpr hview)]
        exact walk_end fuel status hstop (hw.holds (by rw [List.length_take]; omega))
      · rw [if_neg (fun h => hview (hended.mp h))]
        exact walk_stop fuel status hr hreq (looksTooLong_stop hstop hw (by omega))
  | cons e es ih =>
      intro total r fuel status hr hfuel hw
      obtain ⟨fuel, rfl⟩ : ∃ k, fuel = k + 1 := ⟨fuel - 1, by omega⟩
      rw [payload_cons, List.append_assoc] at hw
      by_cases h : IsCounted e ∧ e.bytes.length ≤ r
      · -- the element is counted
        obtain ⟨he, hfit⟩ := h
        have hpos : 0 < e.bytes.length := List.length_pos_iff.mpr e.bytes_ne_nil
        have hnext := hw.drop hfit
        rw [Buf.drop_drop] at hnext
        rw [walk_element fuel status he hr hreq hw hfit,
          ih (total + e.bytes.length) (r - e.bytes.length) fuel _ (by omega) (by omega) hnext,
          if_congr (ended_fits he hfit) rfl rfl, walked_fits he hfit, payload_cons,
          List.length_append, Nat.add_assoc]
        rfl
      · have hnil : walked r (e :: es) = [] := walked_stop h
        have hended := ended_of_nil hnil
        rw [hnil]
        by_cases hend : IsEnding e
        · -- the cluster ends
          have hends : ∀ x ∈ (e :: es).head?, IsEnding x := by simpa using hend
          by_cases hview : 4 ≤ r
          · have hsplit : e.bytes ++ (payload es ++ stop) =
                (e.bytes ++ (payload es ++ stop)).take 4 ++
                  (e.bytes ++ (payload es ++ stop)).drop 4 := (List.take_append_drop 4 _).symm
            rw [hsplit] at hw
            rw [if_pos (hended.mpr ⟨hends, hview⟩)]
            exact walk_end fuel status (hend.isStop _)
              (hw.holds (by rw [List.length_take]; omega))
          · rw [if_neg (fun h => hview (hended.mp h).2)]
            exact walk_stop fuel status hr hreq (looksTooLong_stop (hend.isStop _) hw (by omega))
        · -- the element is too long or unknown
          rw [if_neg (fun h => hend ((hended.mp h).1 e rfl))]
          by_cases hfit : e.bytes.length ≤ r
          · exact walk_unknown fuel status ⟨fun he => h ⟨he, hfit⟩, hend⟩ hr hreq hw hfit
          · have hnotEnd : e.id ≠ clusterId ∧ e.id ≠ cueId := not_or.mp hend
            exact walk_stop fuel status hr hreq (looksTooLong_element hnotEnd hw (by omega))

/-! ## The segmenter at the head of an element -/

/-- The cut is at the head of an element: no element is in pieces, or its last piece is out. -/
def AtBoundary (prev : BlockInfo) : Prop :=
  prev.status = statusPiece → prev.totalPieces = prev.pieceSeq

/-- A run of pieces starts where nothing was counted, and at the head of a cluster also where
the walk counted a Timecode last. -/
def StartsPieces (prev : BlockInfo) (status : Int) : Prop :=
  status = 0 ∨ (prev.status = statusInit ∧ status = onlyTimecode)

section Segmenter

variable {block : Block} {b : Buf} {req : UInt16} {status : Int} {n : Nat}

theorem toNat_walked (hclear : block.info.bytes = 0) (hn : n ≤ req.toNat) :
    (UInt16.ofNat (block.info.bytes.toNat + n)).toNat = n := by
  have hzero : (0 : UInt16).toNat = 0 := rfl
  have hreq := req.toNat_lt
  rw [hclear, hzero, UInt16.toNat_ofNat']
  omega

theorem getSimpleBlocksOrPiece_walked (block : Block) (hclear : block.info.bytes = 0)
    (hstatus : 0 ≤ status) (hnone : status = 0 → n = 0) (hn : n ≤ req.toNat)
    (h : getChankByBytesLoop b req.toNat (req.toNat + 2) 0 0 = some (status, n)) :
    ∃ info, getSimpleBlocksOrPiece block req b = some (⟨info, block.prev⟩, status) ∧
      ((status = 0 ∧ info.status = statusPiece ∧ info.bytes = req) ∨
        (status ≠ 0 ∧ info.status = statusSimpleblock ∧ info.bytes.toNat = n)) := by
  simp only [getSimpleBlocksOrPiece, getChankByBytes_eq _ _ h, Option.bind_eq_bind,
    Option.bind_some]
  by_cases hzero : status = 0
  · subst hzero
    obtain rfl := hnone rfl
    rw [if_neg (by decide)]
    refine ⟨_, rfl, Or.inl ⟨rfl, rfl, ?_⟩⟩
    show UInt16.ofNat (block.info.bytes.toNat + 0) + req = req
    rw [hclear]
    exact UInt16.zero_add req
  · rw [if_pos (by omega)]
    exact ⟨_, rfl, Or.inr ⟨hzero, rfl, toNat_walked hclear hn⟩⟩

theorem getFirstBlock_walked (block : Block) (hclear : block.info.bytes = 0)
    (hnone : status = 0 → n = 0) (hn : n ≤ req.toNat)
    (h : getChankByBytesLoop b req.toNat (req.toNat + 2) 0 0 = some (status, n)) :
    ∃ info, getFirstBlock block req b = some (⟨info, block.prev⟩, status) ∧
      (((status = 0 ∨ status = onlyTimecode) ∧ info.status = statusPiece ∧ info.bytes = req) ∨
        (¬ (status = 0 ∨ status = onlyTimecode) ∧ info.status = statusSimpleblock ∧
          info.bytes.toNat = n)) := by
  simp only [getFirstBlock, getChankByBytes_eq _ _ h, Option.bind_eq_bind, Option.bind_some]
  by_cases hzero : status = 0
  · -- nothing was counted
    obtain rfl := hnone hzero
    rw [if_pos hzero]
    refine ⟨_, rfl, Or.inl ⟨Or.inl hzero, rfl, ?_⟩⟩
    show UInt16.ofNat (block.info.bytes.toNat + 0) + req = req
    rw [hclear]
    exact UInt16.zero_add req
  · rw [if_neg hzero]
    by_cases htimecode : status = onlyTimecode
    · -- a Timecode was counted last
      rw [if_pos htimecode]
      refine ⟨_, rfl, Or.inl ⟨Or.inr htimecode, rfl, ?_⟩⟩
      show UInt16.ofNat (getChank b).chankBytes +
        (req - UInt16.ofNat (getChank b).chankBytes) = req
      rw [UInt16.add_comm, UInt16.sub_add_cancel]
    · rw [if_neg htimecode]
      exact ⟨_, rfl, Or.inr ⟨by rintro (h | h) <;> contradiction, rfl, toNat_walked hclear hn⟩⟩

/-- Whole elements as far as the walk came, or a first piece up to the end of the window. -/
theorem getNextBlockByBytes_atBoundary (hclear : block.info.bytes = 0)
    (hplace : AtBoundary block.prev) (hstatus : 0 ≤ status) (hnone : status = 0 → n = 0)
    (hn : n ≤ req.toNat)
    (h : getChankByBytesLoop b req.toNat (req.toNat + 2) 0 0 = some (status, n)) :
    ∃ info, getNextBlockByBytes block req b = some (⟨info, block.prev⟩, status) ∧
      ((StartsPieces block.prev status ∧ info.status = statusPiece ∧ info.bytes = req) ∨
        (¬ StartsPieces block.prev status ∧ info.status = statusSimpleblock ∧
          info.bytes.toNat = n)) := by
  by_cases hinit : block.prev.status = statusInit
  · -- the first block of a cluster
    have hstarts : StartsPieces block.prev status ↔ status = 0 ∨ status = onlyTimecode :=
      or_congr_right (and_iff_right hinit)
    simp only [getNextBlockByBytes, if_pos hinit, hstarts]
    exact getFirstBlock_walked ({ block with info := { block.info with
      clusterSeq := block.prev.clusterSeq
      seq := 1
      pos := UInt32.ofNat clusterHeaderBytes } }) hclear hnone hn h
  · -- a later one, behind whole elements or behind a last piece
    have hstarts : StartsPieces block.prev status ↔ status = 0 :=
      or_iff_left fun h => hinit h.1
    have hpieces := getSimpleBlocksOrPiece_walked ({ block with info := { block.info with
      clusterSeq := block.prev.clusterSeq
      seq := block.prev.seq + 1
      pos := block.prev.pos + block.prev.bytes.toUInt32 } }) hclear hstatus hnone hn h
    simp only [getNextBlockByBytes, if_neg hinit, getLaterBlock, hstarts]
    by_cases hpiece : block.prev.status = statusPiece
    · have hseq := congrArg UInt8.toNat (hplace hpiece)
      simp only [if_pos hpiece, hseq, if_neg (Nat.succ_ne_self _).symm, if_true]
      exact hpieces
    · simp only [if_neg hpiece]
      exact hpieces

theorem getNextBlockByBytes_inside {block' : Block} {ret : Int}
    (hplace : ¬ AtBoundary block.prev)
    (h : getNextBlockByBytes block req b = some (block', ret)) :
    block'.info.totalPieces = block.prev.totalPieces ∧
      block'.info.pieceSeq = block.prev.pieceSeq + 1 := by
  obtain ⟨hpiece, hne⟩ := Classical.not_imp.mp hplace
  have hinit : block.prev.status ≠ statusInit := by
    rw [hpiece]
    decide
  have hseq : block.prev.totalPieces.toNat ≠ block.prev.pieceSeq.toNat :=
    fun heq => hne (UInt8.toNat_inj.mp heq)
  simp only [getNextBlockByBytes, if_neg hinit, getLaterBlock, if_pos hpiece, if_neg hseq] at h
  split at h
  · have hlast := getLastPiece_counters h
    exact hlast
  · cases h
    exact ⟨rfl, rfl⟩

end Segmenter

/-! ## What is reported -/

/-- An element that the walk does not know is reported, and no block starts pieces of it: on
the elements `es`, of which the window of `req` bytes at `b` shows the front. -/
structure ReportsUnknown (block : Block) (es : List Element) (req : UInt16) (b : Buf) : Prop where
  returns : ∃ counted ret, getChankByBytes block b req = some (counted, ret)
  zero : ∀ counted, getChankByBytes block b req = some (counted, 0) →
    ∃ e ∈ es.head?, IsCounted e ∧ req.toNat < e.bytes.length
  unknown : ∀ done e rest, es = done ++ e :: rest → (∀ d ∈ done, IsCounted d) → IsUnknown e →
    (payload (done ++ [e])).length ≤ req.toNat →
    ∃ counted, getChankByBytes block b req = some (counted, -1)
  /-- A run of pieces starts on the first element, or on the second behind a Timecode, and its
  first block ends inside that element. -/
  pieces : AtBoundary block.prev → ∀ block' ret,
    getNextBlockByBytes block req b = some (block', ret) → block'.info.status = statusPiece →
    ∃ front e rest, es = front ++ e :: rest ∧
      front.length = (if ret = onlyTimecode then 1 else 0) ∧ IsCounted e ∧
      (payload front).length ≤ block'.info.bytes.toNat ∧
      block'.info.bytes.toNat ≤ (payload (front ++ [e])).length
  whole : AtBoundary block.prev → ∀ block' ret,
    getNextBlockByBytes block req b = some (block', ret) → block'.info.status ≠ statusPiece →
    ∃ done rest, es = done ++ rest ∧ block'.info.bytes.toNat = (payload done).length
  goesOn : ¬ AtBoundary block.prev → ∀ block' ret,
    getNextBlockByBytes block req b = some (block', ret) →
    block'.info.totalPieces = block.prev.totalPieces ∧
      block'.info.pieceSeq = block.prev.pieceSeq + 1

/-- The walk sees the end of the cluster; or it does not stop at an element that is complete
and unknown, and where a run of pieces starts, it starts on an element that the walk knows and
that reaches to the end of the window. -/
def MeetsKnown (prev : BlockInfo) (r : Nat) (es : List Element) : Prop :=
  Ended r es ∨
    ((∀ e ∈ (unwalked r es).head?, IsUnknown e →
        r < (payload (walked r es)).length + e.bytes.length) ∧
      (StartsPieces prev (walkStatus 0 (walked r es)) →
        ∃ front e rest, es = front ++ e :: rest ∧
          front.length = (if walked r es = [] then 0 else 1) ∧ IsCounted e ∧
          (payload front).length ≤ r ∧ r ≤ (payload (front ++ [e])).length))

section Reports

variable {block : Block} {b : Buf} {stop : List UInt8} {es : List Element} {req : UInt16}

theorem getChankByBytes_elements (hstop : IsStop stop)
    (hw : Window b (payload es ++ stop) req.toNat) :
    getChankByBytesLoop b req.toNat (req.toNat + 2) 0 0 =
      some (if Ended req.toNat es then clusterEnd else walkStatus 0 (walked req.toNat es),
        (payload (walked req.toNat es)).length) := by
  have hwalk := walk_elements hstop req.toNat_lt es 0 req.toNat (req.toNat + 2) 0
    (Nat.zero_add _) (by omega) (by rwa [Buf.drop_zero])
  rwa [Nat.zero_add] at hwalk

/-- A complete element that is unknown, behind elements that are counted, stops the walk. -/
theorem unwalked_unknown {r : Nat} {done rest : List Element} {e : Element}
    (hdone : ∀ d ∈ done, IsCounted d) (he : IsUnknown e) (hfit : (payload done).length ≤ r) :
    walked r (done ++ e :: rest) = done ∧ unwalked r (done ++ e :: rest) = e :: rest := by
  have hwalked : walked r (done ++ e :: rest) = done := by
    rw [walked_append hdone hfit, walked_stop fun h => he.1 h.1, List.append_nil]
  exact ⟨hwalked, by rw [unwalked, hwalked, List.drop_left]⟩

theorem meetsKnown_of_reports (hclear : block.info.bytes = 0) (hstop : IsStop stop)
    (hw : Window b (payload es ++ stop) req.toNat) (h : ReportsUnknown block es req b) :
    MeetsKnown block.prev req.toNat es := by
  by_cases hended : Ended req.toNat es
  · exact Or.inl hended
  have hloop := getChankByBytes_elements hstop hw
  rw [if_neg hended] at hloop
  have hcall := getChankByBytes_eq block req hloop
  have hsplit := walked_append_unwalked req.toNat es
  have hle := length_walked_le req.toNat es
  have hnonneg := walkStatus_nonneg (walked req.toNat es)
  refine Or.inr ⟨fun e he hunknown => ?_, fun hstarts => ?_⟩
  · -- a complete unknown element would have to be reported
    by_contra hlong
    obtain ⟨rest, hrest⟩ : ∃ rest, unwalked req.toNat es = e :: rest :=
      List.head?_eq_some_iff.mp he
    rw [hrest] at hsplit
    obtain ⟨counted, hcounted⟩ := h.unknown _ e rest hsplit.symm walked_counted hunknown (by
      rw [payload_append, List.length_append, payload_cons, payload_nil, List.append_nil]
      omega)
    rw [hcall] at hcounted
    have hstatus : walkStatus 0 (walked req.toNat es) = -1 := by
      simpa using (Prod.ext_iff.mp (Option.some.inj hcounted)).2
    omega
  · rcases hstarts with hzero | ⟨hinit, htimecode⟩
    · -- nothing is counted
      have hnil := walkStatus_eq_zero.mp hzero
      rw [hzero] at hcall
      obtain ⟨e, he, hknown, hlong⟩ := h.zero _ hcall
      obtain ⟨rest, rfl⟩ : ∃ rest, es = e :: rest := List.head?_eq_some_iff.mp he
      refine ⟨[], e, rest, rfl, by rw [if_pos hnil]; rfl, hknown, Nat.zero_le _, ?_⟩
      simpa using hlong.le
    · -- a Timecode is counted last
      have hne : walked req.toNat es ≠ [] := by
        intro hnil
        rw [hnil] at htimecode
        exact absurd htimecode (by decide)
      have hplace : AtBoundary block.prev := by
        intro hpiece
        rw [hinit] at hpiece
        exact absurd hpiece (by decide)
      obtain ⟨info, hnext, ⟨-, hpiece, hbytes⟩ | ⟨hnot, -⟩⟩ :=
        getNextBlockByBytes_atBoundary hclear hplace hnonneg
          (fun hzero => absurd (walkStatus_eq_zero.mp hzero) hne) hle hloop
      · obtain ⟨front, e, rest, hes, hlen, hknown, hlow, hhigh⟩ :=
          h.pieces hplace _ _ hnext hpiece
        rw [hbytes] at hlow hhigh
        rw [if_pos htimecode] at hlen
        exact ⟨front, e, rest, hes, by rw [if_neg hne, hlen], hknown, hlow, hhigh⟩
      · exact absurd (Or.inr ⟨hinit, htimecode⟩) hnot

theorem reports_of_meetsKnown (hclear : block.info.bytes = 0) (hstop : IsStop stop)
    (hw : Window b (payload es ++ stop) req.toNat) (h : MeetsKnown block.prev req.toNat es) :
    ReportsUnknown block es req b := by
  have hloop := getChankByBytes_elements hstop hw
  have hcall := getChankByBytes_eq block req hloop
  have hsplit := walked_append_unwalked req.toNat es
  have hle := length_walked_le req.toNat es
  have hnonneg : 0 ≤ (if Ended req.toNat es then clusterEnd
      else walkStatus 0 (walked req.toNat es)) := by
    split
    · decide
    · exact walkStatus_nonneg _
  -- a run of pieces starts only where the end of the cluster is not in view
  have hnotEnded : StartsPieces block.prev (if Ended req.toNat es then clusterEnd
      else walkStatus 0 (walked req.toNat es)) → ¬ Ended req.toNat es := by
    intro hstarts hended
    rw [if_pos hended] at hstarts
    rcases hstarts with hzero | ⟨-, htimecode⟩
    · exact absurd hzero (by decide)
    · exact absurd htimecode (by decide)
  have hnone : (if Ended req.toNat es then clusterEnd
      else walkStatus 0 (walked req.toNat es)) = 0 → walked req.toNat es = [] := by
    intro hzero
    rw [if_neg (hnotEnded (Or.inl hzero))] at hzero
    exact walkStatus_eq_zero.mp hzero
  have hnext := fun hplace => getNextBlockByBytes_atBoundary hclear hplace hnonneg
    (fun h => by rw [hnone h]; rfl) hle hloop
  refine ⟨⟨_, _, hcall⟩, fun counted hcounted => ?_, fun done e rest hes hdone he hfit => ?_,
    fun hplace block' ret hblock hpiece => ?_, fun hplace block' ret hblock hwhole => ?_,
    fun hplace block' ret hblock => getNextBlockByBytes_inside hplace hblock⟩
  · -- the status 0
    rw [hcall] at hcounted
    have hzero := (Prod.ext_iff.mp (Option.some.inj hcounted)).2
    have hnil := hnone hzero
    have hended := hnotEnded (Or.inl hzero)
    obtain ⟨front, e, rest, hes, hlen, hknown, -⟩ :=
      (h.resolve_left hended).2 (Or.inl (walkStatus_eq_zero.mpr hnil))
    rw [if_pos hnil, List.length_eq_zero_iff] at hlen
    subst hlen
    rw [List.nil_append] at hes
    refine ⟨e, by rw [hes]; rfl, hknown, ?_⟩
    by_contra hfit
    rw [hes, walked_fits hknown (by omega)] at hnil
    exact List.cons_ne_nil _ _ hnil
  · -- a complete unknown element
    rw [payload_append, List.length_append, payload_cons, payload_nil, List.append_nil] at hfit
    obtain ⟨hwalked, hunwalked⟩ : walked req.toNat (done ++ e :: rest) = done ∧
        unwalked req.toNat (done ++ e :: rest) = e :: rest :=
      unwalked_unknown hdone he (by omega)
    rw [← hes] at hwalked hunwalked
    have hhead : e ∈ (unwalked req.toNat es).head? := by
      rw [hunwalked]
      rfl
    have hended : ¬ Ended req.toNat es := fun hended => he.2 (hended.1 e hhead)
    have hlong := (h.resolve_left hended).1 e hhead he
    rw [hwalked] at hlong
    omega
  · -- a run of pieces starts
    obtain ⟨info, hinfo, ⟨hstarts, -, hbytes⟩ | ⟨-, hsimple, -⟩⟩ := hnext hplace
    · obtain ⟨rfl, rfl⟩ := Prod.mk.inj (Option.some.inj (hinfo.symm.trans hblock))
      have hended := hnotEnded hstarts
      rw [if_neg hended] at hstarts ⊢
      obtain ⟨front, e, rest, hes, hlen, hknown, hlow, hhigh⟩ :=
        (h.resolve_left hended).2 hstarts
      refine ⟨front, e, rest, hes, hlen.trans ?_, hknown, by rwa [hbytes], by rwa [hbytes]⟩
      rcases hstarts with hzero | ⟨-, htimecode⟩
      · rw [hzero, if_pos (walkStatus_eq_zero.mp hzero), if_neg (by decide)]
      · rw [htimecode, if_pos rfl, if_neg]
        intro hnil
        rw [hnil] at htimecode
        exact absurd htimecode (by decide)
    · obtain ⟨rfl, -⟩ := Prod.mk.inj (Option.some.inj (hinfo.symm.trans hblock))
      rw [hsimple] at hpiece
      exact absurd hpiece (by decide)
  · -- whole elements
    obtain ⟨info, hinfo, ⟨-, hpiece, -⟩ | ⟨-, -, hbytes⟩⟩ := hnext hplace
    · obtain ⟨rfl, -⟩ := Prod.mk.inj (Option.some.inj (hinfo.symm.trans hblock))
      exact absurd hpiece hwhole
    · obtain ⟨rfl, -⟩ := Prod.mk.inj (Option.some.inj (hinfo.symm.trans hblock))
      exact ⟨_, _, hsplit.symm, hbytes⟩

/-- Unknown elements are reported exactly where the walk does not come to them. -/
theorem reportsUnknown_iff (hclear : block.info.bytes = 0) (hstop : IsStop stop)
    (hw : Window b (payload es ++ stop) req.toNat) :
    ReportsUnknown block es req b ↔ MeetsKnown block.prev req.toNat es :=
  ⟨meetsKnown_of_reports hclear hstop hw, reports_of_meetsKnown hclear hstop hw⟩

end Reports

theorem length_zero_lt : [(0 : UInt8)].length < 2 ^ (7 * 1) - 1 := by decide

/-- An element of one data byte, its id one byte. -/
def shortElement (idValue : Nat) (h : idValue < 2 ^ (7 * 1)) : Element where
  idWidth := 1
  idValue := idValue
  width := 1
  data := [0]
  idWidth_pos := Nat.one_pos
  idWidth_le := one_le_four
  idValue_lt := h
  width_pos := Nat.one_pos
  width_le := one_le_eight
  size_lt := length_zero_lt

/-- A Timecode and a SimpleBlock at the head of a cluster. -/
theorem reportsUnknown_short :
    let es := [shortElement 0x67 (by decide), shortElement 0x23 (by decide)]
    ReportsUnknown initBlock es maxBlockBytes
      (Buf.zero.overlay ((payload es ++ toBe 4 clusterId).take 1000)) := by
  intro es
  refine (reportsUnknown_iff rfl (.inl (List.prefix_refl (toBe 4 clusterId)))
    (.overlay _ 1000)).mpr (.inl ?_)
  decide

/-- A `PrevSize` (`0xab`) between the two: `GetChankByBytes` answers as if only the Timecode were
there, and the three elements of nine bytes make a first piece of 1000. -/
theorem unknown_swallowed :
    let es := [shortElement 0x67 (by decide), shortElement 0x2b (by decide),
      shortElement 0x23 (by decide)]
    let b := Buf.zero.overlay ((payload es ++ toBe 4 clusterId).take 1000)
    ¬ ReportsUnknown initBlock es maxBlockBytes b ∧
      (getChankByBytes initBlock b maxBlockBytes).map Prod.snd = some onlyTimecode ∧
      (getNextBlockByBytes initBlock maxBlockBytes b).map
        (fun next => (next.1.info.status, next.1.info.bytes)) = some (statusPiece, 1000) := by
  intro es b
  have hstatus : (getChankByBytes initBlock b maxBlockBytes).map Prod.snd = some onlyTimecode := by
    decide +kernel
  refine ⟨fun h => ?_, hstatus, by decide +kernel⟩
  obtain ⟨counted, hcounted⟩ := h.unknown [shortElement 0x67 (by decide)]
    (shortElement 0x2b (by decide)) [shortElement 0x23 (by decide)] rfl
    (fun d hd => (List.mem_singleton.mp hd) ▸ by decide) ⟨by decide, by decide⟩ (by decide)
  rw [hcounted, Option.map_some] at hstatus
  have hne : (-1 : Int) ≠ onlyTimecode := by decide
  exact hne (Option.some.inj hstatus)

end P2PStream
