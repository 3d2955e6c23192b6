/-
# `P2PStream.Node.NodesList` — the node list is a map keyed by id

`NODES_LIST` is written by three messages: `NodeInitialStatus` and `NodeAdvertise`
push the records whose id is new, `NodeResList` also writes over the entry of an id
it knows.  That is a `KeyedList`, and every other event leaves the list alone.  So
over every run of a peer the ids stay distinct and in place, the origin's first, and
each entry is what was written for its id last.
-/
import P2PStream.Lib.KeyedList
import P2PStream.Node.Frame

namespace P2PStream

open Lib

/-! ## What is written -/

/-- The records that an event writes to the list. -/
def listWrites : Event → List (Write NodeStatus)
  | .initialStatus data k =>
      let statusNum := ((k.toNat : Int) - 8).tdiv nodeStatusBytes
      (readStatuses (data.drop (nodeStatusBytes * 2 + 8)) (statusNum - 2).toNat).map (⟨·, false⟩)
  | .advertise data k =>
      (readStatuses (data.drop nodeStatusBytes) (k.toNat / nodeStatusBytes - 1)).map (⟨·, false⟩)
  | .resList data k => (readStatuses data (k.toNat / nodeStatusBytes)).map (⟨·, true⟩)
  | _ => []

/-- Entries, and records as they are read, have no timestamp. -/
def Untimed (s : NodeStatus) : Prop := s.timestamp = Timeval.zero

theorem Untimed.eq {s : NodeStatus} (h : Untimed s) : { s with timestamp := Timeval.zero } = s := by
  rw [← h]

theorem untimed_of_mem_readStatuses {data : Buf} {count : Nat} {s : NodeStatus}
    (h : s ∈ readStatuses data count) : Untimed s := by
  obtain ⟨i, -, rfl⟩ := List.mem_map.mp h
  rfl

theorem isListContains_iff {id : UInt16} {list : List NodeStatus} :
    isListContains id list = true ↔ id ∈ list.map (·.id) := by
  simp [isListContains]

theorem untimed_write {list : List NodeStatus} {w : Write NodeStatus}
    (hlist : ∀ s ∈ list, Untimed s) (hw : Untimed w.record) :
    ∀ s ∈ write (·.id) list w, Untimed s := by
  intro s hs
  unfold write at hs
  split at hs
  · split at hs
    · obtain ⟨x, hx, rfl⟩ := List.mem_map.mp hs
      split
      · exact hw
      · exact hlist x hx
    · exact hlist s hs
  · rcases List.mem_append.mp hs with hs | hs
    · exact hlist s hs
    · rw [List.mem_singleton.mp hs]
      exact hw

theorem untimed_writeAll {ws : List (Write NodeStatus)} (hws : ∀ w ∈ ws, Untimed w.record) :
    ∀ {list : List NodeStatus}, (∀ s ∈ list, Untimed s) →
      ∀ s ∈ writeAll (·.id) list ws, Untimed s := by
  induction ws with
  | nil => exact fun h => h
  | cons w ws ih =>
      intro list hlist
      exact ih (fun w' hw' => hws w' (List.mem_cons_of_mem _ hw'))
        (untimed_write hlist (hws w List.mem_cons_self))

theorem pushNew_eq {statuses : List NodeStatus} (hs : ∀ s ∈ statuses, Untimed s)
    (list : List NodeStatus) :
    pushNew list statuses = writeAll (·.id) list (statuses.map (⟨·, false⟩)) := by
  induction statuses generalizing list with
  | nil => rfl
  | cons s statuses ih =>
      have hstep : (if isListContains s.id list then list else listPush list s)
          = write (·.id) list ⟨s, false⟩ := by
        simp only [write, isListContains_iff, listPush, (hs s List.mem_cons_self).eq]
        rfl
      rw [pushNew, List.foldl_cons, hstep]
      exact ih (fun s' hs' => hs s' (List.mem_cons_of_mem _ hs')) _

theorem pushOrUpdate_eq {statuses : List NodeStatus} (hs : ∀ s ∈ statuses, Untimed s) :
    ∀ {list : List NodeStatus}, (∀ s ∈ list, Untimed s) →
      pushOrUpdate list statuses = writeAll (·.id) list (statuses.map (⟨·, true⟩)) := by
  induction statuses with
  | nil => exact fun _ => rfl
  | cons s statuses ih =>
      intro list hlist
      have hself := hs s List.mem_cons_self
      have hupdate : listUpdate list s = list.map fun x => if x.id = s.id then s else x := by
        refine List.map_congr_left fun x hx => ?_
        rw [hlist x hx, hself.eq]
      have hstep : (if isListContains s.id list then listUpdate list s else listPush list s)
          = write (·.id) list ⟨s, true⟩ := by
        simp only [write, isListContains_iff, listPush, hself.eq, hupdate]
        rfl
      rw [pushOrUpdate, List.foldl_cons, hstep]
      exact ih (fun s' hs' => hs s' (List.mem_cons_of_mem _ hs')) (untimed_write hlist hself)

/-! ## What leaves the list alone -/

theorem nodeSetup_nodesList {env : Env} {data : Buf} {saddr : UInt32} {source : UInt16}
    {n n' : Node} (h : nodeSetup env data saddr source n = .ok n') :
    n'.nodesList = n.nodesList := by
  rcases nodeSetup_cases h with ⟨-, ad, rfl⟩ | ⟨-, i, -, rfl⟩ <;> rfl

theorem nodeConnect_nodesList {env : Env} {data : Buf} {n n' : Node}
    (h : nodeConnect env data n = .ok n') : n'.nodesList = n.nodesList := by
  rcases nodeConnect_cases h with ⟨-, rfl | rfl⟩ | ⟨-, i, -, rfl⟩ <;> rfl

/-! ## One event -/

/-- The three messages write their records; every other event leaves the list alone. -/
theorem step_nodesList {env : Env} {n n' : Node} {e : Event} (hlist : ∀ s ∈ n.nodesList, Untimed s)
    (h : n.step .peer env e = .ok n') :
    n'.nodesList = writeAll (·.id) n.nodesList (listWrites e) := by
  by_cases he : isQuiet e = true
  · have hnone : listWrites e = [] := by
      cases e <;> first | rfl | cases he
    rw [hnone, (step_sameStore he h).nodesList]
    rfl
  · cases e with
    | setup data k saddr source => exact nodeSetup_nodesList h
    | initialStatus data k =>
        cases h
        exact pushNew_eq (fun s hs => untimed_of_mem_readStatuses hs) n.nodesList
    | advertise data k =>
        cases h
        show (sendSetup _).nodesList = _
        rw [(sendSetup_talks _).sameStore.nodesList]
        exact pushNew_eq (fun s hs => untimed_of_mem_readStatuses hs) n.nodesList
    | block data k =>
        obtain ⟨w, -, h⟩ := bind_eq_ok.mp h
        cases h
        rfl
    | connect data => exact nodeConnect_nodesList h
    | resList data k =>
        cases h
        exact pushOrUpdate_eq (fun s hs => untimed_of_mem_readStatuses hs) hlist
    | accept data =>
        cases h
        obtain ⟨_, _, _, hafter, -⟩ := nodeAccept_changes env data n
        rw [hafter]
        rfl
    | mulStream =>
        obtain ⟨_, _, _, _, rfl, -⟩ := step_mulStream_distributes h
        rfl
    | main w => cases h; rfl
    | _ => exact absurd rfl he

theorem untimed_listWrites {e : Event} : ∀ w ∈ listWrites e, Untimed w.record := by
  intro w hw
  cases e with
  | initialStatus data k =>
      obtain ⟨s, hs, rfl⟩ := List.mem_map.mp hw
      exact untimed_of_mem_readStatuses hs
  | advertise data k =>
      obtain ⟨s, hs, rfl⟩ := List.mem_map.mp hw
      exact untimed_of_mem_readStatuses hs
  | resList data k =>
      obtain ⟨s, hs, rfl⟩ := List.mem_map.mp hw
      exact untimed_of_mem_readStatuses hs
  | _ => exact absurd hw List.not_mem_nil

/-! ## Runs -/

/-- The writes of a run, after the origin's own record. -/
def runWrites (origin : NodeStatus) (ls : List (Env × Event)) : List (Write NodeStatus) :=
  ⟨origin, false⟩ :: ls.flatMap fun l => listWrites l.2

theorem run_nodesList {n n' : Node} {ls : List (Env × Event)} (hrun : Run (NodeStep .peer) n ls n')
    (hlist : ∀ s ∈ n.nodesList, Untimed s) :
    n'.nodesList = writeAll (·.id) n.nodesList (ls.flatMap fun l => listWrites l.2) := by
  induction hrun with
  | nil n => rfl
  | @cons n n₁ n' l ls hfirst _ ih =>
      have hstep := step_nodesList hlist hfirst
      have hlist₁ : ∀ s ∈ n₁.nodesList, Untimed s := by
        rw [hstep]
        exact untimed_writeAll untimed_listWrites hlist
      rw [ih hlist₁, hstep, List.flatMap_cons, writeAll_append]

/-- The origin's record at a peer that starts. -/
def originRecord (originIp : UInt32) : NodeStatus :=
  { NodeStatus.zero with ipaddr := htonl originIp, port := osPort, id := originId }

theorem peerStart_nodesList (env : Env) (srcIp originIp : UInt32) (srcPort : UInt16)
    (start : Timeval) (blocks : Fin maxChildNum → Block) :
    (peerStart env srcIp originIp srcPort start blocks).nodesList = [originRecord originIp] := by
  unfold peerStart
  rw [(sendSetup_talks _).sameStore.nodesList]
  rfl

theorem run_nodesList_peerStart {env : Env} {srcIp originIp : UInt32} {srcPort : UInt16}
    {start : Timeval} {blocks : Fin maxChildNum → Block} {ls : List (Env × Event)} {n : Node}
    (hrun : Run (NodeStep .peer) (peerStart env srcIp originIp srcPort start blocks) ls n) :
    n.nodesList = writeAll (·.id) [] (runWrites (originRecord originIp) ls) := by
  have hstart := peerStart_nodesList env srcIp originIp srcPort start blocks
  have hlist : ∀ s ∈ (peerStart env srcIp originIp srcPort start blocks).nodesList, Untimed s := by
    intro s hs
    rw [hstart, List.mem_singleton] at hs
    rw [hs]
    rfl
  rw [run_nodesList hrun hlist, hstart]
  rfl

/-- The node list of a peer is a map keyed by id with the origin first: the ids are
distinct; they are the origin's and those of the records written; later steps keep them
in place; and each entry is what was written for its id last. -/
theorem nodesList_keyed {env : Env} {srcIp originIp : UInt32} {srcPort : UInt16}
    {start : Timeval} {blocks : Fin maxChildNum → Block} {ls ls' : List (Env × Event)}
    {n n' : Node}
    (hrun : Run (NodeStep .peer) (peerStart env srcIp originIp srcPort start blocks) ls n)
    (hlater : Run (NodeStep .peer) n ls' n') :
    (n.nodesList.map (·.id)).Nodup ∧
    (n.nodesList.map (·.id)).head? = some originId ∧
    (∀ id, id ∈ n.nodesList.map (·.id) ↔
      id = originId ∨ ∃ l ∈ ls, ∃ w ∈ listWrites l.2, w.record.id = id) ∧
    n.nodesList.map (·.id) <+: n'.nodesList.map (·.id) ∧
    ∀ s ∈ n.nodesList,
      lastWritten (·.id) s.id (runWrites (originRecord originIp) ls) = some s := by
  have hlist := run_nodesList_peerStart hrun
  have hlist' := run_nodesList_peerStart (hrun.append hlater)
  refine ⟨?_, ?_, ?_, ?_, ?_⟩
  · rw [hlist]
    exact nodup_writeAll_nil _
  · -- the origin's record is written to the empty list
    obtain ⟨rest, hrest⟩ : [originRecord originIp].map (·.id) <+:
        (writeAll (·.id) [originRecord originIp] (ls.flatMap fun l => listWrites l.2)).map (·.id) :=
      keys_prefix_writeAll _ _
    have hwrites : n.nodesList = writeAll (·.id) [originRecord originIp]
      (ls.flatMap fun l => listWrites l.2) := hlist
    rw [hwrites, ← hrest]
    rfl
  · intro id
    rw [hlist, mem_keys_writeAll, runWrites]
    simp only [List.map_nil, List.not_mem_nil, false_or, List.mem_cons, List.mem_flatMap]
    constructor
    · rintro ⟨w, rfl | ⟨l, hl, hw⟩, rfl⟩
      · exact .inl rfl
      · exact .inr ⟨l, hl, w, hw, rfl⟩
    · rintro (rfl | ⟨l, hl, w, hw, rfl⟩)
      · exact ⟨_, .inl rfl, rfl⟩
      · exact ⟨w, .inr ⟨l, hl, hw⟩, rfl⟩
  · rw [hlist, hlist', runWrites, runWrites, List.flatMap_append, ← List.cons_append,
      writeAll_append]
    exact keys_prefix_writeAll _ _
  · intro s hs
    rw [hlist] at hs
    exact lastWritten_of_mem hs

/-- A ResList of one record for node 7, and then another. -/
def resListTwice : List (Env × Event) :=
  [(Env.clock ⟨1, 0⟩, .resList (packetData (copyNodeStatusToBytes (statusOf 7 7 12347 1))) 30),
    (Env.clock ⟨2, 0⟩, .resList (packetData (copyNodeStatusToBytes (statusOf 7 7 12348 2))) 30)]

/-- The second record is the one that stands in the list. -/
theorem nodesList_keyed_resListTwice : ∃ n, Run (NodeStep .peer) firstPeer resListTwice n ∧
    (∀ s ∈ n.nodesList, lastWritten (·.id) s.id
      (runWrites (originRecord 0x0100000a) resListTwice) = some s) ∧
    n.nodesList.map (·.port) = [osPort, 12348] := by
  have hrun : Run (NodeStep .peer) firstPeer resListTwice _ := .cons rfl (.cons rfl (.nil _))
  have hkeyed := nodesList_keyed hrun (.nil _)
  exact ⟨_, hrun, hkeyed.2.2.2.2, by decide +kernel⟩

end P2PStream
