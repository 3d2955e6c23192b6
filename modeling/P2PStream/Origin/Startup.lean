/-
# `P2PStream.Origin.Startup` — the start-up of the origin (`originsource/main.c`)

`main` starts the reading thread and the timer thread and then waits for the gateway,
reads the WebM header, and allocates the clusters, the block and the children's blocks.
From the start of its thread on, a packet may be handled at any point between.

`NodeSetup` asks for a full cache, and the origin's cache is full when the timer has
passed it once: `TOTAL_BUFFER` is set before the threads start.  So nothing ties an
admission to the progress of `main`.
-/
import P2PStream.Peer.Run
import P2PStream.Webm.Header

namespace P2PStream

open Lib

/-! ## The three threads -/

/-- What `main` does next. -/
inductive StartupPhase where
  | readThread
  | timeThread
  | gateway
  | header
  | seek
  | cluster
  | block
  | childBlocks
  | streaming
  deriving DecidableEq, Repr

/-- The next statement of `main`. -/
def StartupPhase.next : StartupPhase → StartupPhase
  | .readThread => .timeThread
  | .timeThread => .gateway
  | .gateway => .header
  | .header => .seek
  | .seek => .cluster
  | .cluster => .block
  | .block => .childBlocks
  | .childBlocks | .streaming => .streaming

/-- `UpdateWebMHeaderFromWebM` has returned. -/
def StartupPhase.isBehindHeader : StartupPhase → Bool
  | .readThread | .timeThread | .gateway | .header => false
  | _ => true

/-- `InitCluster` has returned. -/
def StartupPhase.isBehindCluster : StartupPhase → Bool
  | .block | .childBlocks | .streaming => true
  | _ => false

/-- The origin while it starts: `filled` is set when `WEBM_HEADER` is, and `halted` when the
process is stopped by a fault. -/
structure Startup where
  phase : StartupPhase
  node : Node
  filled : Bool
  halted : Bool

/-- The globals when `main` creates its first thread. -/
def Startup.boot (srcIp : UInt32) (file : List UInt8) (start : Timeval) : Startup where
  phase := .readThread
  node := { originStart srcIp file start freshBlocks Cluster.zero Cluster.zero with
    webm := Webm.start file }
  filled := false
  halted := false

/-- A round of `UpdateWebMHeaderFromWebM`, which finds `file` on the disk. -/
def headerRound (past : Buf) (file : List UInt8) (w : Webm) : Except Fault (Webm × Bool) :=
  if w.totalFileBytes < file.length then
    updateWebMHeaderFromWebM past { w with file, totalFileBytes := file.length }
  else
    .ok ({ w with file }, false)

/-- A statement of `main` that returns. -/
def Startup.advance (s : Startup) (f : Webm → Webm) : Startup :=
  { s with phase := s.phase.next, node := s.node.mapWebm f }

/-- `main`, up to its loop: `file` is what the encoder has written so far, and `blocks` what
`malloc` leaves in the children's blocks. -/
def Startup.main (env : Env) (file : List UInt8) (blocks : Fin maxChildNum → Block)
    (s : Startup) : Except Fault Startup :=
  match s.phase with
  | .readThread | .timeThread | .gateway | .streaming => .ok (s.advance id)
  | .header => do
      let (w, filled) ← headerRound env.past file s.node.webm
      return if filled then { s.advance fun _ => w with filled }
        else { s with node := { s.node with webm := w } }
  | .seek => .ok (s.advance fun w => seekABSWebM w.webmHeaderTotalBytes.toNat w)
  | .cluster => .ok (s.advance (initCluster env.freshCluster env.freshPrevCluster))
  | .block => .ok (s.advance fun w => { w with blockAllocated := true, currentBlock := initBlock })
  | .childBlocks => .ok (s.advance fun w => { w with
      childBlocksAllocated := true, currentChildBlock := blocks, firstClusterSeq := 0 })

/-- The threads that can take an event: the timer's sections are the timer's, the loop and
`SendMulStream` are `main`'s, and the rest is the reader's.  The loop frees nothing. -/
def StartupPhase.allows (phase : StartupPhase) : Event → Bool
  | .mulStream => phase = .streaming
  | .main webm => phase = .streaming && webm.clusterAllocated && webm.childBlocksAllocated
  | .timeKeepAlive | .timeSetup | .timeout _ | .timeList | .timeRetry | .timeCache |
    .timeDepart => phase ≠ .readThread && phase ≠ .timeThread
  | _ => phase ≠ .readThread

inductive StartupLabel where
  | main (env : Env) (file : List UInt8) (blocks : Fin maxChildNum → Block)
  | event (env : Env) (e : Event)

/-- What is left when a thread has run, or faulted. -/
def Startup.after (s : Startup) : Except Fault Startup → Startup
  | .ok t => t
  | .error _ => { s with halted := true }

/-- One step of one of the threads. -/
def Startup.step (s : Startup) (l : StartupLabel) : Option Startup :=
  if s.halted then none
  else
    match l with
    | .main env file blocks => some (s.after (s.main env file blocks))
    | .event env e =>
        if s.phase.allows e then
          some (s.after ((fun node => { s with node }) <$> s.node.step .origin env e))
        else none

def StartupStep (s : Startup) (l : StartupLabel) (t : Startup) : Prop := s.step l = some t

/-- Behind the header, `main` leaves the origin that the other modules start from. -/
theorem initMain_originStart (env : Env) (file : List UInt8) (blocks : Fin maxChildNum → Block)
    (srcIp : UInt32) (start : Timeval) :
    let n := (Startup.boot srcIp file start).node
    Run StartupStep ⟨.cluster, n, true, false⟩ (List.replicate 3 (.main env file blocks))
      ⟨.streaming, originStart srcIp file start blocks env.freshCluster env.freshPrevCluster,
        true, false⟩ :=
  .cons rfl (.cons rfl (.cons rfl (.nil _)))

/-! ## What is allocated -/

/-- What an admission follows: `WEBM_HEADER`, the clusters and the children's blocks. -/
structure Ready (s : Startup) : Prop where
  filled : s.filled = true
  cluster : s.node.webm.clusterAllocated = true
  childBlocks : s.node.webm.childBlocksAllocated = true

/-- Allocated by `main` and by nobody else, but for the clusters: an InitialStatus allocates
them too. -/
structure Allocated (s : Startup) : Prop where
  filled : s.filled = s.phase.isBehindHeader
  cluster : s.phase.isBehindCluster = true → s.node.webm.clusterAllocated = true
  childBlocks : s.node.webm.childBlocksAllocated = decide (s.phase = .streaming)

theorem Allocated.boot (srcIp : UInt32) (file : List UInt8) (start : Timeval) :
    Allocated (.boot srcIp file start) := ⟨rfl, fun h => Bool.noConfusion h, rfl⟩

/-- The origin is ready when the children's blocks are allocated, which is last. -/
theorem Allocated.ready_iff {s : Startup} (h : Allocated s) : Ready s ↔ s.phase = .streaming := by
  constructor
  · intro hready
    exact of_decide_eq_true (h.childBlocks.symm.trans hready.childBlocks)
  · intro hphase
    refine ⟨?_, h.cluster ?_, ?_⟩
    · rw [h.filled, hphase]
      rfl
    · rw [hphase]
      rfl
    · rw [h.childBlocks, hphase]
      rfl

/-- Nothing is freed, and no child's block is allocated. -/
structure Keeps (w w' : Webm) : Prop where
  cluster : w.clusterAllocated = true → w'.clusterAllocated = true
  childBlocks : w'.childBlocksAllocated = w.childBlocksAllocated

theorem Keeps.refl (w : Webm) : Keeps w w := ⟨id, rfl⟩

theorem Keeps.of_eq {w w' : Webm} (h : w' = w) : Keeps w w' := h ▸ .refl w

theorem SameWrites.keeps {w w' : Webm} (h : SameWrites w w') : Keeps w w' := by
  obtain ⟨_, _, _, _, -, rfl⟩ := h
  exact ⟨id, rfl⟩

theorem seekABSWebM_keeps (offset : Int) (w : Webm) : Keeps w (seekABSWebM offset w) := by
  simp only [seekABSWebM, fsetpos]
  split <;> exact ⟨id, rfl⟩

theorem Keeps.trans {w₁ w₂ w₃ : Webm} (h : Keeps w₁ w₂) (h' : Keeps w₂ w₃) : Keeps w₁ w₃ :=
  ⟨h'.cluster ∘ h.cluster, h'.childBlocks.trans h.childBlocks⟩

theorem analyzeChankToWebMHeader_keeps {buf : Buf} {w w' : Webm} {status : Int}
    (h : analyzeChankToWebMHeader buf w = some (w', status)) : Keeps w w' := by
  obtain ⟨⟨st, total⟩, -, h⟩ := Option.bind_eq_some_iff.mp h
  cases h
  split <;> exact ⟨id, rfl⟩

theorem updateWebMHeaderFromWebM_keeps {past : Buf} {w w' : Webm} {last : Bool}
    (h : updateWebMHeaderFromWebM past w = .ok (w', last)) : Keeps w w' := by
  simp only [updateWebMHeaderFromWebM] at h
  split at h
  · cases h
  · next w₁ status hanalyze =>
    have hkeeps : Keeps w w₁ := by
      refine .trans ?_ (analyzeChankToWebMHeader_keeps hanalyze)
      exact ⟨id, rfl⟩
    have hseek := hkeeps.trans (seekABSWebM_keeps 0 w₁)
    split at h
    · split at h
      · cases h
        exact hseek.trans ⟨id, rfl⟩
      · split at h
        · cases h
          exact hseek
        · cases h
    · cases h
      exact hkeeps

theorem headerRound_keeps {past : Buf} {file : List UInt8} {w w' : Webm} {last : Bool}
    (h : headerRound past file w = .ok (w', last)) : Keeps w w' := by
  unfold headerRound at h
  split at h
  · refine .trans ?_ (updateWebMHeaderFromWebM_keeps h)
    exact ⟨id, rfl⟩
  · cases h
    exact ⟨id, rfl⟩

/-- The loop of `main`. -/
def Event.isMain : Event → Bool
  | .main _ => true
  | _ => false

/-- The events that both programs handle alike, and that write nothing to the file. -/
def Event.isCommon : Event → Bool
  | .setup .. | .id .. | .initialStatus .. | .block .. | .resList .. | .accept .. | .unaccept .. |
    .main .. => false
  | _ => true

theorem step_common (env : Env) (n : Node) {e : Event} (he : e.isCommon = true) :
    n.step .origin env e = n.step .peer env e ∧ isAside e = true := by
  cases e with
  | setup | id | initialStatus | block | resList | accept | unaccept | main => cases he
  | _ => exact ⟨rfl, rfl⟩

/-- Packets and the timer free nothing, and allocate no child's block. -/
theorem originStep_keeps {env : Env} {n n' : Node} {e : Event} (he : e.isMain = false)
    (h : n.step .origin env e = .ok n') : Keeps n.webm n'.webm := by
  by_cases hcommon : e.isCommon = true
  · obtain ⟨hsame, haside⟩ := step_common env n hcommon
    exact (step_sameWrites haside (hsame.symm.trans h)).keeps
  · cases e with
    | setup data k saddr source =>
        have hwebm := receiveSetup_webm .origin k saddr source n
        rcases nodeSetup_stream h with ⟨hsame, -⟩ | ⟨i, -, -, hsame, -⟩
        · exact .of_eq (hsame.trans hwebm)
        · rw [hsame, hwebm]
          exact ⟨id, rfl⟩
    | initialStatus data k =>
        cases h
        exact ⟨fun _ => rfl, rfl⟩
    | id | block | resList | accept | unaccept =>
        cases h
        exact .refl _
    | main w => cases he
    | _ => exact absurd rfl hcommon

theorem Allocated.keeps {s : Startup} (h : Allocated s) {n : Node}
    (hkeeps : Keeps s.node.webm n.webm) : Allocated { s with node := n } :=
  ⟨h.filled, hkeeps.cluster ∘ h.cluster, hkeeps.childBlocks.trans h.childBlocks⟩

theorem Allocated.halt {s : Startup} (h : Allocated s) : Allocated { s with halted := true } :=
  ⟨h.filled, h.cluster, h.childBlocks⟩

theorem Startup.main_allocated {env : Env} {file : List UInt8} {blocks : Fin maxChildNum → Block}
    {s t : Startup} (h : Allocated s) (hmain : s.main env file blocks = .ok t) : Allocated t := by
  obtain ⟨phase, n, filled, halted⟩ := s
  obtain ⟨hfilled, hcluster, hblocks⟩ := h
  cases phase with
  | header =>
      obtain ⟨⟨w, last⟩, hround, hmain⟩ := bind_eq_ok.mp hmain
      have hkeeps := headerRound_keeps hround
      cases last with
      | true =>
          cases hmain
          exact ⟨rfl, fun h => Bool.noConfusion h, hkeeps.childBlocks.trans hblocks⟩
      | false =>
          cases hmain
          exact ⟨hfilled, fun h => Bool.noConfusion h, hkeeps.childBlocks.trans hblocks⟩
  | seek =>
      cases hmain
      have hkeeps := seekABSWebM_keeps n.webm.webmHeaderTotalBytes.toNat n.webm
      exact ⟨hfilled, fun h => Bool.noConfusion h, hkeeps.childBlocks.trans hblocks⟩
  | cluster =>
      cases hmain
      exact ⟨hfilled, fun _ => rfl, hblocks⟩
  | childBlocks =>
      cases hmain
      exact ⟨hfilled, fun _ => hcluster rfl, rfl⟩
  | readThread | timeThread | gateway | block | streaming =>
      cases hmain
      exact ⟨hfilled, hcluster, hblocks⟩

/-- A step is a statement of `main`, an event that is allowed, or a fault. -/
theorem startupStep_cases {s t : Startup} {l : StartupLabel} (hstep : StartupStep s l t) :
    t = { s with halted := true } ∨
      (∃ env file blocks, l = .main env file blocks ∧ s.main env file blocks = .ok t) ∨
      ∃ env e n, l = .event env e ∧ s.phase.allows e = true ∧
        s.node.step .origin env e = .ok n ∧ t = { s with node := n } := by
  unfold StartupStep Startup.step at hstep
  split at hstep
  · cases hstep
  · split at hstep
    · next env file blocks =>
      cases hmain : s.main env file blocks with
      | error fault =>
          rw [hmain] at hstep
          exact .inl (Option.some.inj hstep).symm
      | ok u =>
          rw [hmain] at hstep
          cases hstep
          exact .inr (.inl ⟨env, file, blocks, rfl, hmain⟩)
    · next env e =>
      split at hstep
      · next hallows =>
        cases hnode : s.node.step .origin env e with
        | error fault =>
            rw [hnode] at hstep
            exact .inl (Option.some.inj hstep).symm
        | ok n =>
            rw [hnode] at hstep
            exact .inr (.inr ⟨env, e, n, rfl, hallows, hnode, (Option.some.inj hstep).symm⟩)
      · cases hstep

theorem StartupStep.allocated {s t : Startup} {l : StartupLabel} (h : Allocated s)
    (hstep : StartupStep s l t) : Allocated t := by
  rcases startupStep_cases hstep with
    rfl | ⟨env, file, blocks, -, hmain⟩ | ⟨env, e, n, -, hallows, hnode, rfl⟩
  · exact h.halt
  · exact Startup.main_allocated h hmain
  · by_cases he : e.isMain = true
    · -- the loop is behind the start-up, and keeps what is allocated
      cases e with
      | main w =>
          cases hnode
          simp only [StartupPhase.allows, Bool.and_eq_true, decide_eq_true_eq] at hallows
          obtain ⟨⟨hphase, hcluster⟩, hblocks⟩ := hallows
          exact ⟨h.filled, fun _ => hcluster, hblocks.trans (decide_eq_true hphase).symm⟩
      | _ => cases he
    · exact h.keeps (originStep_keeps (Bool.eq_false_iff.mpr he) hnode)

/-! ## Admissions -/

/-- Whoever `NodeSetup` admits finds the origin ready. -/
def AdmitsReady (s : Startup) : StartupLabel → Startup → Prop
  | .event env (.setup _ k saddr source), _ =>
      AdmitsSetup env (receiveSetup .origin k saddr source s.node) → Ready s
  | _, _ => True

/-- No Setup that passes the tests of `NodeSetup` comes before `main` is at its loop. -/
def SetupGuard (s : Startup) : StartupLabel → Prop
  | .event env (.setup ..) => AdmitsSetup env s.node → s.phase = .streaming
  | _ => True

theorem Allocated.admitsReady_iff {s : Startup} (h : Allocated s) (l : StartupLabel)
    (t : Startup) : AdmitsReady s l t ↔ SetupGuard s l := by
  cases l with
  | main => exact Iff.rfl
  | event env e =>
      cases e with
      | setup data k saddr source =>
          simp only [AdmitsReady, SetupGuard, admitsSetup_receiveSetup, h.ready_iff]
      | _ => exact Iff.rfl

/-- In a run of the start-up, under any packets and any sections of the timer, every admission
finds the origin ready, exactly when no Setup that would be admitted comes before the loop. -/
theorem admitsReady_iff_guarded (srcIp : UInt32) (file : List UInt8) (start : Timeval)
    (ls : List StartupLabel) (t : Startup) :
    Run (Guarded StartupStep SetupGuard) (.boot srcIp file start) ls t ↔
      Run (Safe StartupStep AdmitsReady) (.boot srcIp file start) ls t :=
  Run.guarded_iff_safe Allocated
    (fun _ l t h hguard hstep => ⟨hstep.allocated h, (h.admitsReady_iff l t).mpr hguard⟩)
    (fun _ l t h _ hgood => (h.admitsReady_iff l t).mp hgood)
    (Allocated.boot srcIp file start)

/-- Both threads are started and the timer has run once; `main` waits for the gateway. -/
def waitingLabels : List StartupLabel :=
  [.main (Env.clock ⟨0, 0⟩) [] freshBlocks, .main (Env.clock ⟨0, 0⟩) [] freshBlocks,
    .event (Env.clock ⟨1, 0⟩) .timeCache]

/-- A first Setup that comes while `main` waits for the gateway is admitted, before there is a
header or a cluster, and the origin follows a null pointer. -/
theorem admits_unready :
    ∃ s t, Run StartupStep (.boot 0x0100000a [] Timeval.zero) waitingLabels s ∧
      StartupStep s (.event (Env.clock ⟨2, 0⟩)
        (.setup (packetData [10, 0, 0, 3]) 4 0x0300000a 12347)) t ∧
      ¬ AdmitsReady s (.event (Env.clock ⟨2, 0⟩)
        (.setup (packetData [10, 0, 0, 3]) 4 0x0300000a 12347)) t ∧
      s.filled = false ∧ s.node.webm.clusterAllocated = false ∧ t.halted = true := by
  refine ⟨_, _, .cons rfl (.cons rfl (.cons rfl (.nil _))), rfl, fun h => ?_, rfl, rfl, ?_⟩
  · have hadm : AdmitsSetup (Env.clock ⟨2, 0⟩) (receiveSetup .origin 4 0x0300000a 12347
        (timeCache (Env.clock ⟨1, 0⟩) (Startup.boot 0x0100000a [] Timeval.zero).node)) := by
      unfold AdmitsSetup
      decide +kernel
    exact absurd (h hadm).filled (by decide)
  · decide +kernel

end P2PStream
