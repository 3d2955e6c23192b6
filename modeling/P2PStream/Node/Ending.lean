/-
# `P2PStream.Node.Ending` — the last packet

The first SIGINT sends the END message to the slots below `CURRENT_CHILD_NUM`.  The
children sit in the slots whose bits are set.  These are the same while the children
fill the slots from the front and the counter counts them: a child that leaves slot 0
while slot 1 is taken, a parent that times out and is counted as a child, and a Depart
that is answered twice all part them.
-/
import P2PStream.Node.Members

namespace P2PStream

open Lib

/-! ## The handler of SIGINT -/

/-- `SendEndStatus`. -/
def sendEndStatus (dst : Slot) (n : Node) : Node :=
  sendData (blockProto :: blockinfoEnd) (blockinfoBytes + 1) dst n

/-- The slots below `CURRENT_CHILD_NUM`, which is at most `MAX_CHILD_NUM`. -/
def endSlots (n : Node) : List Slot :=
  (List.finRange 4).filter fun s => (s.val : Int) < n.currentChildNum

/-- `SignalHandler`, with `SIG_INT_COUNT`.  The second SIGINT ends the process, behind the `FOOTER`
of a peer. -/
def signalHandler (sigIntCount : Nat) (n : Node) : Except Fault (Nat × Node) :=
  if sigIntCount + 1 ≤ 1 then
    .ok (sigIntCount + 1, (endSlots n).foldl (fun n s => sendEndStatus s n) n)
  else if n.myStatus.id = originId then
    .error (.exit "" n.webm.file)
  else if !n.webm.clusterAllocated then
    .error .segv
  else
    .error (.exit "" (exportWebM footer (updateClusterToWebM n.webm.currentBlockNum n.webm)).file)

/-- The END message for a slot. -/
def endPacket (n : Node) (s : Slot) : Packet := packetGenerate (blockProto :: blockinfoEnd) s n

theorem sendEndStatus_eq (s : Slot) (n : Node) :
    sendEndStatus s n = { n with sent := n.sent ++ [endPacket n s] } := by
  have hdata : (Buf.zero.overlay (blockProto :: blockinfoEnd)).take
      (UInt16.ofInt (blockinfoBytes + 1)).toNat = blockProto :: blockinfoEnd := by decide
  rw [sendEndStatus, sendData, hdata]
  rfl

theorem signalHandler_first (n : Node) : signalHandler 0 n =
    .ok (1, { n with sent := n.sent ++ (endSlots n).map (endPacket n) }) := by
  have hfold : ∀ (slots : List Slot) (sent : List Packet),
      slots.foldl (fun m s => sendEndStatus s m) { n with sent } =
        { n with sent := sent ++ slots.map (endPacket n) } := by
    intro slots
    induction slots with
    | nil =>
        intro sent
        rw [List.map_nil, List.append_nil]
        rfl
    | cons s slots ih =>
        intro sent
        rw [List.foldl_cons, sendEndStatus_eq, ih, List.map_cons, List.append_assoc]
        rfl
  rw [signalHandler, if_pos (Nat.le_refl 1), hfold (endSlots n) n.sent]

/-- The first SIGINT sends the END message to each child slot whose bit is set, once, and to no
other slot. -/
structure EndsChildren (n : Node) : Prop where
  sends : ∃ m, signalHandler 0 n = .ok (1, m) ∧
    m.sent = n.sent ++ (endSlots n).map (endPacket n)
  once : ∀ i, (endSlots n).count (childSlot i) = if n.isConnected (childSlot i) then 1 else 0
  noOther : ∀ s, (∀ i, s ≠ childSlot i) → s ∉ endSlots n

/-! ## Children from the front -/

namespace Links

/-- The connected child slots are those below the counter. -/
structure Filled (l : Links) : Prop where
  below : ∀ i : Fin maxChildNum, l.isConnected (LinkSlot.child i) = true ↔ (i.val : Int) < l.count
  count_le : l.count ≤ maxChildNum

theorem filled_iff (l : Links) : l.Filled ↔
    (l.connected.getLsbD 0 = true ↔ 0 < l.count) ∧
      (l.connected.getLsbD 1 = true ↔ 1 < l.count) ∧ l.count ≤ 2 := by
  constructor
  · exact fun h => ⟨h.below 0, h.below 1, h.count_le⟩
  · rintro ⟨hzero, hone, hle⟩
    exact ⟨Fin.forall_fin_two.mpr ⟨hzero, hone⟩, hle⟩

theorem filled_congr {l m : Links} (h₀ : m.connected.getLsbD 0 = l.connected.getLsbD 0)
    (h₁ : m.connected.getLsbD 1 = l.connected.getLsbD 1) (hcount : m.count = l.count) :
    m.Filled ↔ l.Filled := by
  rw [filled_iff, filled_iff, h₀, h₁, hcount]

theorem filled_join (l : Links) : l.join.Filled ↔ l.Filled :=
  filled_congr (isConnected_join_child 0) (isConnected_join_child 1) rfl

theorem filled_leave (l : Links) : l.leave.Filled ↔ l.Filled :=
  filled_congr (isConnected_leave_child 0) (isConnected_leave_child 1) rfl

theorem depart_count_le {l : Links} (id : UInt16) : (l.depart id).count ≤ l.count := by
  by_cases h₀ : (l.link 0).id = id <;> by_cases h₁ : (l.link 1).id = id <;>
    simp [h₀, h₁, depart, drop]
  omega

theorem filled_record (l : Links) (k : Link) : (l.record k).Filled ↔ l.Filled :=
  filled_congr rfl rfl rfl

theorem filled_redirect (l : Links) (a : UInt32 × UInt16) : (l.redirect a).Filled ↔ l.Filled :=
  filled_congr rfl rfl rfl

/-- The first free slot is taken: the children fill the slots unless the counter was negative. -/
theorem Filled.admit_iff {l : Links} (h : l.Filled) {i : Fin maxChildNum} (k : Link)
    (a : UInt32 × UInt16) (hi : l.isConnected (LinkSlot.child i) = false)
    (hfirst : ∀ j, j < i → l.isConnected (LinkSlot.child j) = true) :
    (l.admitNode i k a).Filled ↔ 0 ≤ l.count := by
  obtain ⟨hzero, hone, hle⟩ := (filled_iff l).mp h
  have hbit (j : Fin maxChildNum) := isConnected_admitNode k a hi (LinkSlot.child j)
  have hbit₀ : (l.admitNode i k a).connected.getLsbD 0 =
      (l.connected.getLsbD 0 || decide (LinkSlot.child i = LinkSlot.child 0)) := hbit 0
  have hbit₁ : (l.admitNode i k a).connected.getLsbD 1 =
      (l.connected.getLsbD 1 || decide (LinkSlot.child i = LinkSlot.child 1)) := hbit 1
  have hcount : (l.admitNode i k a).count = l.count + 1 := rfl
  rw [filled_iff, hbit₀, hbit₁, hcount]
  match i with
  | 0 =>
      have hclear : l.connected.getLsbD 0 = false := hi
      rw [hclear] at hzero ⊢
      rw [show decide (LinkSlot.child 0 = LinkSlot.child 0) = true by decide,
        show decide (LinkSlot.child 0 = LinkSlot.child 1) = false by decide, Bool.or_false, hone]
      simp only [Bool.false_eq_true, false_iff] at hzero
      simp only [Bool.or_true, true_iff]
      omega
  | 1 =>
      have hclear : l.connected.getLsbD 1 = false := hi
      have hset : l.connected.getLsbD 0 = true := hfirst 0 (by decide)
      rw [hclear] at hone ⊢
      rw [hset] at hzero ⊢
      rw [show decide (LinkSlot.child 1 = LinkSlot.child 1) = true by decide]
      simp only [Bool.false_eq_true, false_iff, true_iff] at hone hzero
      simp only [Bool.or_true, Bool.true_or, true_iff]
      omega

/-- Subtracting the bits of some children: a clear bit 0 borrows from bit 1. -/
theorem childBits_sub : ∀ (x : BitVec 8) (b₀ b₁ : Bool),
    let y := x - (if b₀ then BitVec.twoPow 8 0 else 0) - (if b₁ then BitVec.twoPow 8 1 else 0)
    y.getLsbD 0 = (x.getLsbD 0 ^^ b₀) ∧
      y.getLsbD 1 = (x.getLsbD 1 ^^ b₁ ^^ (b₀ && !x.getLsbD 0)) := by
  decide +kernel

theorem ne_childSlot_iff {s : Slot} : (∀ i, s ≠ childSlot i) ↔ 1 < s.val := by
  revert s
  decide

theorem Filled.drop_iff {l : Links} (h : l.Filled) {s : Slot} (hs : l.connected.getLsbD s = true) :
    (l.drop s).Filled ↔
      (s = childSlot 0 → l.isConnected 1 = false) ∧ ((∀ i, s ≠ childSlot i) → l.count ≤ 0) := by
  obtain ⟨hzero, hone, hle⟩ := (filled_iff l).mp h
  have hbit₀ : (l.drop s).connected.getLsbD 0 =
      (l.connected.getLsbD 0 && decide (s.val ≠ 0)) := isConnected_drop hs 0
  have hbit₁ : (l.drop s).connected.getLsbD 1 =
      (l.connected.getLsbD 1 && decide (s.val ≠ 1)) := isConnected_drop hs 1
  have hcount : (l.drop s).count = l.count - 1 := rfl
  have hconnected : l.isConnected 1 = l.connected.getLsbD 1 := rfl
  rw [filled_iff, hbit₀, hbit₁, hcount, hconnected, ne_childSlot_iff]
  by_cases hlow : s.val = 0
  · have hset : l.connected.getLsbD 0 = true := by rwa [hlow] at hs
    have hslot : s = childSlot 0 := Fin.ext hlow
    rw [hset] at hzero ⊢
    cases hnext : l.connected.getLsbD 1 <;> rw [hnext] at hone <;>
      simp [hslot, childSlot] at hzero hone ⊢ <;> omega
  · by_cases hnext : s.val = 1
    · have hset : l.connected.getLsbD 1 = true := by rwa [hnext] at hs
      have hslot : s ≠ childSlot 0 := fun h => hlow (congrArg Fin.val h)
      rw [hset] at hone ⊢
      cases hfirst : l.connected.getLsbD 0 <;> rw [hfirst] at hzero <;>
        simp [hslot, hnext] at hzero hone ⊢ <;> omega
    · have hslot : s ≠ childSlot 0 := fun h => hlow (congrArg Fin.val h)
      have hhigh : 1 < s.val := by omega
      rw [decide_eq_true hlow, decide_eq_true hnext, Bool.and_true, Bool.and_true, hzero, hone]
      simp only [hslot, hhigh, IsEmpty.forall_iff, true_and, forall_const]
      omega

/-- The slots that a Depart names are all connected, and it does not leave slot 1 alone. -/
theorem Filled.depart_iff {l : Links} (h : l.Filled) (id : UInt16) :
    (l.depart id).Filled ↔
      (∀ i, (l.link (LinkSlot.child i)).id = id → l.isConnected (LinkSlot.child i) = true) ∧
        ((l.link 0).id = id → l.isConnected 1 = true → (l.link 1).id = id) := by
  obtain ⟨hzero, hone, hle⟩ := (filled_iff l).mp h
  obtain ⟨hbit₀, hbit₁⟩ :=
    childBits_sub l.connected (decide ((l.link 0).id = id)) (decide ((l.link 1).id = id))
  have hnamed : (∀ i, (l.link (LinkSlot.child i)).id = id →
      l.isConnected (LinkSlot.child i) = true) ↔
      ((l.link 0).id = id → l.connected.getLsbD 0 = true) ∧
        ((l.link 1).id = id → l.connected.getLsbD 1 = true) :=
    Fin.forall_fin_two
  have hdepart : (l.depart id).connected = l.connected -
        (if decide ((l.link 0).id = id) then BitVec.twoPow 8 0 else 0) -
        (if decide ((l.link 1).id = id) then BitVec.twoPow 8 1 else 0) ∧
      (l.depart id).count = l.count - (decide ((l.link 0).id = id)).toNat -
        (decide ((l.link 1).id = id)).toNat := by
    by_cases h₀ : (l.link 0).id = id <;> by_cases h₁ : (l.link 1).id = id <;>
      simp [h₀, h₁, depart, drop]
  have hconnected : l.isConnected 1 = l.connected.getLsbD 1 := rfl
  rw [filled_iff, hdepart.1, hdepart.2, hbit₀, hbit₁, hnamed, hconnected]
  generalize l.connected.getLsbD 0 = x₀ at hzero ⊢
  generalize l.connected.getLsbD 1 = x₁ at hone ⊢
  by_cases h₀ : (l.link 0).id = id <;> by_cases h₁ : (l.link 1).id = id <;>
    cases x₀ <;> cases x₁ <;> simp [h₀, h₁] at hzero hone ⊢ <;> omega

end Links

theorem checkChildNum_first {n : Node} {i j : Fin maxChildNum} (h : checkChildNum n = some i)
    (hj : j < i) : n.links.isConnected (LinkSlot.child j) = true := by
  unfold checkChildNum at h
  split at h
  · obtain ⟨-, k, hk, hki, hbefore⟩ := List.find?_eq_some_iff_getElem.mp h
    have hkval : k = i.val := by rw [← hki, List.getElem_finRange]; rfl
    have hset := hbefore j.val (by rw [hkval]; exact hj)
    rw [List.getElem_finRange, Bool.not_not] at hset
    exact hset
  · cases h

/-- END reaches exactly the connected children where they fill the slots from the front. -/
theorem endsChildren_iff_filled (n : Node) : EndsChildren n ↔ n.links.Filled := by
  have hmem : ∀ s : Slot, s ∈ endSlots n ↔ (s.val : Int) < n.currentChildNum := fun s => by
    simp [endSlots]
  have hnodup : (endSlots n).Nodup := (List.nodup_finRange 4).filter _
  have hconnected : ∀ i, n.links.isConnected (LinkSlot.child i) = n.isConnected (childSlot i) :=
    fun i => rfl
  have hcount : n.links.count = n.currentChildNum := rfl
  constructor
  · rintro ⟨-, honce, hother⟩
    refine ⟨fun i => ?_, ?_⟩
    · have hi := honce i
      rw [hnodup.count] at hi
      rw [hconnected, hcount]
      refine Iff.trans ?_ (hmem (childSlot i))
      by_cases hbit : n.isConnected (childSlot i) = true
      · rw [if_pos hbit] at hi
        refine iff_of_true hbit ?_
        by_contra hnot
        exact absurd (hi.symm.trans (if_neg hnot)) (by decide)
      · rw [if_neg hbit] at hi
        refine iff_of_false hbit fun hsent => ?_
        exact absurd (hi.symm.trans (if_pos hsent)) (by decide)
    · have htwo := hother 2 (Links.ne_childSlot_iff.mpr (by decide))
      rw [hmem] at htwo
      exact Int.not_lt.mp htwo
  · rintro ⟨hbelow, hle⟩
    refine ⟨⟨_, signalHandler_first n, rfl⟩, fun i => ?_, fun s hs hmem' => ?_⟩
    · rw [hnodup.count]
      exact if_congr ((hmem _).trans (hbelow i).symm) rfl rfl
    · have hlt := (hmem s).mp hmem'
      have hhigh := Links.ne_childSlot_iff.mp hs
      rw [hcount] at hle
      have hmax : (maxChildNum : Int) = 2 := rfl
      omega

/-- An admission finds no negative counter.  A slot that times out is the last child, or the parent
where nobody counts it.  A Depart names connected slots only, and not the first child alone while
there is a second. -/
def EndGuard (n : Node) (l : Env × Event) : Prop :=
  match l.2 with
  | .setup _ _ _ _ => AdmitsSetup l.1 n → 0 ≤ n.currentChildNum
  | .connect data => AdmitsConnect l.1 (readLink data).id n → 0 ≤ n.currentChildNum
  | .timeout s => isTimedOut l.1 s n →
      (s = childSlot 0 → n.isConnected (childSlot 1) = false) ∧
        ((∀ i, s ≠ childSlot i) → n.currentChildNum ≤ 0)
  | .depart data =>
      (∀ i, (n.nodesStatus (childSlot i)).id = (readLink data).id → n.isConnected (childSlot i)) ∧
        ((n.nodesStatus (childSlot 0)).id = (readLink data).id → n.isConnected (childSlot 1) →
          (n.nodesStatus (childSlot 1)).id = (readLink data).id)
  | _ => True

/-- From a state whose children fill the slots, a step leads to one exactly under the guard. -/
theorem filled_step_iff {program : Program} {n n' : Node} {l : Env × Event}
    (h : n.links.Filled) (hstep : NodeStep program n l n') :
    n'.links.Filled ↔ EndGuard n l := by
  obtain ⟨env, e⟩ := l
  have hafter : LinksAfter program env n n'.links e := step_links hstep
  have hadmit : ∀ {yes : Prop} {k : Fin maxChildNum → Link} {a : UInt32 × UInt16},
      ((¬ yes ∧ n'.links = n.links) ∨
        (yes ∧ ∃ i, checkChildNum n = some i ∧ n'.links = n.links.admitNode i (k i) a)) →
      (n'.links.Filled ↔ (yes → 0 ≤ n.currentChildNum)) := by
    rintro yes k a (⟨hno, hsame⟩ | ⟨hyes, i, hi, hadm⟩)
    · rw [hsame]
      exact iff_of_true h fun hyes => absurd hyes hno
    · rw [hadm, h.admit_iff _ _ (checkChildNum_clear hi) fun j hj => checkChildNum_first hi hj]
      exact ⟨fun hnonneg _ => hnonneg, fun hguard => hguard hyes⟩
  cases e with
  | setup data k saddr source => exact hadmit hafter
  | connect data => exact hadmit hafter
  | depart data =>
      have hdepart : n'.links = n.links.depart (readLink data).id := hafter
      rw [hdepart]
      exact h.depart_iff _
  | timeout s =>
      have hdrop : n'.links = if isTimedOut env s n then n.links.drop s else n.links := hafter
      rw [hdrop]
      by_cases ht : isTimedOut env s n = true
      · rw [if_pos ht, h.drop_iff (isConnected_of_isTimedOut ht)]
        exact ⟨fun hlast _ => hlast, fun hguard => hguard ht⟩
      · rw [if_neg ht]
        exact iff_of_true h fun ht' => absurd ht' ht
  | initialStatus data k =>
      have hjoin : n'.links = (n.links.record _).join := hafter
      rw [hjoin, Links.filled_join, Links.filled_record]
      exact iff_of_true h trivial
  | detach data =>
      obtain ⟨id, hleave⟩ := hafter
      rw [hleave, Links.filled_leave, Links.filled_record]
      exact iff_of_true h trivial
  | advertise data k =>
      have hredirect : n'.links = n.links.redirect _ := hafter
      rw [hredirect, Links.filled_redirect]
      exact iff_of_true h trivial
  | accept data =>
      refine iff_of_true ?_ trivial
      cases program with
      | origin =>
          have hsame : n'.links = n.links := hafter
          rwa [hsame]
      | peer =>
          have haccept : n'.links = if n.isConnected parentId then n.links.record (readLink data)
            else (n.links.record (readLink data)).join := hafter
          rw [haccept]
          split
          · rwa [Links.filled_record]
          · rwa [Links.filled_join, Links.filled_record]
  | _ =>
      have hsame : n'.links = n.links := hafter
      rw [hsame]
      exact iff_of_true h trivial

theorem Started.filled {program : Program} {n : Node} (h : Started program n) :
    n.links.Filled := by
  obtain ⟨hconnected, hcount, -⟩ := h.links
  rw [Links.filled_iff, hconnected, hcount]
  decide

/-- The counter only rises where `CheckChildNum` finds room. -/
theorem childNum_step_le {program : Program} {n n' : Node} {l : Env × Event}
    (h : n.currentChildNum ≤ maxChildNum) (hstep : NodeStep program n l n') :
    n'.currentChildNum ≤ maxChildNum := by
  obtain ⟨env, e⟩ := l
  have hafter : LinksAfter program env n n'.links e := step_links hstep
  have hroom : ∀ {i : Fin maxChildNum}, checkChildNum n = some i →
      n.currentChildNum < maxChildNum := by
    intro i hi
    by_contra hfull
    rw [checkChildNum, if_neg hfull] at hi
    cases hi
  have hcount : n'.links.count ≤ n.currentChildNum ∨ (∃ i, checkChildNum n = some i) ∧
      n'.links.count = n.currentChildNum + 1 := by
    cases e with
    | setup | connect =>
        rcases hafter with ⟨-, hsame⟩ | ⟨-, i, hi, hadm⟩
        · exact .inl (le_of_eq (congrArg Links.count hsame))
        · exact .inr ⟨⟨i, hi⟩, congrArg Links.count hadm⟩
    | depart data =>
        left
        have hdepart : n'.links = n.links.depart (readLink data).id := hafter
        rw [hdepart]
        exact Links.depart_count_le _
    | timeout s =>
        left
        have hdrop : n'.links = if isTimedOut env s n then n.links.drop s else n.links := hafter
        rw [hdrop]
        split
        · exact Int.sub_le_self _ (by decide)
        · exact le_refl _
    | detach data =>
        obtain ⟨id, hleave⟩ := hafter
        exact .inl (le_of_eq (congrArg Links.count hleave))
    | accept data =>
        left
        cases program with
        | origin => exact le_of_eq (congrArg Links.count hafter)
        | peer =>
            have haccept : n'.links = if n.isConnected parentId then n.links.record (readLink data)
              else (n.links.record (readLink data)).join := hafter
            rw [haccept]
            split <;> exact le_refl n.links.count
    | _ => exact .inl (le_of_eq (congrArg Links.count hafter))
  rcases hcount with hle | ⟨⟨i, hi⟩, heq⟩
  · exact le_trans hle h
  · have hlt := hroom hi
    have hcount' : n'.currentChildNum = n.currentChildNum + 1 := heq
    omega

/-- No run leads above `MAX_CHILD_NUM`: the handler of SIGINT stays inside the tables. -/
theorem childNum_le {program : Program} {n n' : Node} {ls : List (Env × Event)}
    (hstart : Started program n) (hrun : Run (NodeStep program) n ls n') :
    n'.currentChildNum ≤ maxChildNum := by
  refine hrun.invariant (fun s l t hs hstep => childNum_step_le hs hstep) ?_
  obtain ⟨-, hcount, -⟩ := hstart.links
  have hzero : n.currentChildNum = 0 := hcount
  rw [hzero]
  decide

/-- In every state of a run the END message reaches exactly the connected children, when and only
when each step of the run meets the guard. -/
theorem ends_iff_guarded {program : Program} {n n' : Node} {ls : List (Env × Event)}
    (hstart : Started program n) :
    EndsChildren n ∧ (Run (Guarded (NodeStep program) EndGuard) n ls n' ↔
      Run (Safe (NodeStep program) fun _ _ m => EndsChildren m) n ls n') := by
  refine ⟨(endsChildren_iff_filled n).mpr hstart.filled,
    Run.guarded_iff_safe (fun m => m.links.Filled) ?_ ?_ hstart.filled⟩
  · intro s l t hs hguard hstep
    have hfilled := (filled_step_iff hs hstep).mpr hguard
    exact ⟨hfilled, (endsChildren_iff_filled t).mpr hfilled⟩
  · intro s l t hs hstep hgood
    exact (filled_step_iff hs hstep).mp ((endsChildren_iff_filled t).mp hgood)

/-- Node 5 connects to the origin and departs again. -/
theorem ends_iff_guarded_depart : ∃ n, Run (Safe (NodeStep .origin) fun _ _ m => EndsChildren m)
    firstOrigin (connectOnce ++ [(Env.clock ⟨3, 0⟩,
      .depart (packetData (copyNodeStatusToBytes (statusOf 5 3 12347 0))))]) n := by
  refine ⟨_, (ends_iff_guarded (.origin _ _ _ _ _ _)).2.mp
    (.cons ⟨trivial, rfl⟩ (.cons ⟨fun _ => ?_, rfl⟩ (.cons ⟨⟨?_, ?_⟩, rfl⟩ (.nil _))))⟩
  all_goals decide +kernel

/-- Two children, and the first one departs: END goes to its slot, and not to the child's. -/
theorem firstChild_departs : ∃ n, Started .origin firstOrigin ∧ Run (NodeStep .origin) firstOrigin
    (connectOnce ++ [
      (Env.clock ⟨3, 0⟩, .connect (packetData (copyNodeStatusToBytes (statusOf 6 4 12348 0)))),
      (Env.clock ⟨4, 0⟩, .depart (packetData (copyNodeStatusToBytes (statusOf 5 3 12347 0))))]) n ∧
    endSlots n = [childSlot 0] ∧ n.isConnected (childSlot 0) = false ∧
    n.isConnected (childSlot 1) = true ∧ ¬ EndsChildren n := by
  refine ⟨_, .origin _ _ _ _ _ _, Node.exec_eq_ok_iff.mp rfl, ?_, ?_, ?_, fun h => ?_⟩
  · decide +kernel
  · decide +kernel
  · decide +kernel
  · exact absurd (h.once 1) (by decide +kernel)

end P2PStream
