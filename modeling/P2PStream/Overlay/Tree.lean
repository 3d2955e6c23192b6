/-
# `P2PStream.Overlay.Tree` — who stands above whom

A node takes a parent when it handles an Accept, or an InitialStatus with its parent's
bit clear.  The candidates come from lists that name the nodes below it like any
other, and a node accepts a Connect on its cache and its free slots alone.  Nothing asks
who stands above whom: two nodes that lose their parents one after the other, each with
the other in its list, become each other's parents.

The links form a forest for as long as no node takes a parent that stands below it.
No other message closes a cycle, and no timer does.
-/
import P2PStream.Lib.Forest
import P2PStream.Node.Address
import P2PStream.Node.Receive
import P2PStream.Origin.InOrder
import P2PStream.Overlay.Ids

namespace P2PStream

open Lib

/-! ## The network -/

/-- The nodes by their addresses, and for each the node that its entry of `PARENT_ID` comes from:
the sender of the Accept or the InitialStatus that it handled last. -/
structure Overlay where
  node : Addr → Node
  parent : Addr → Addr

/-- The origin is at `o`. -/
def programAt (o a : Addr) : Program := if a = o then .origin else .peer

/-- What nobody has to send: the timer, the sending of blocks, the origin's main loop. -/
def isOwn : Event → Bool
  | .mulStream | .timeKeepAlive | .timeSetup | .timeout _ | .timeList | .timeRetry | .timeCache
  | .timeDepart | .main _ => true
  | _ => false

/-- The handler and its arguments for a packet that arrives; `rest` is the buffer it is read
into. -/
def Packet.event (p : Packet) (rest : Buf) : Option Event :=
  p.data.head?.bind fun protocol =>
    handler protocol (rest.overlay p.data.tail) (UInt16.ofNat p.data.tail.length) p.saddr
      (htons p.source)

/-- The messages that fill the entry of `PARENT_ID`. -/
def fillsParent : Program → Event → Bool
  | _, .initialStatus .. => true
  | .peer, .accept _ => true
  | _, _ => false

inductive OverlayEvent where
  | own (a : Addr) (env : Env) (e : Event)
  /-- Packet `k` of those that `b` has sent comes to `a`. -/
  | deliver (b a : Addr) (env : Env) (k : Nat) (rest : Buf)

namespace Overlay

variable (o : Addr) (s : Overlay)

/-- The event when packet `k` of `b` comes to `a`: any packet sent, at any time, any number of
times. -/
def arrives (b a : Addr) (k : Nat) (rest : Buf) : Option Event := do
  let p ← (s.node b).sent[k]?
  if (p.daddr, p.dest) = a then p.event rest else none

/-- Behind an event at `a`; `b` is the sender. -/
def behind (a b : Addr) (e : Event) (n : Node) : Overlay where
  node := Function.update s.node a n
  parent := if fillsParent (programAt o a) e then Function.update s.parent a b else s.parent

/-- One step, if it can be taken and stops no process. -/
def next : OverlayEvent → Option Overlay
  | .own a env e => do
      let n ← ((s.node a).step (programAt o a) env e).toOption
      if isOwn e then some { s with node := Function.update s.node a n } else none
  | .deliver b a env k rest => do
      let e ← s.arrives b a k rest
      let n ← ((s.node a).step (programAt o a) env e).toOption
      some (s.behind o a b e n)

/-- The parent's bit of `a` is set, and its parent is `b`. -/
def Leads (a b : Addr) : Prop := (s.node a).isConnected parentId = true ∧ s.parent a = b

/-- The links to the parents never lead back, and no finite group feeds only itself. -/
structure Forest : Prop where
  acyclic : Acyclic s.Leads
  fed : ∀ G : Finset Addr, G.Nonempty → ∃ a ∈ G, ∀ b ∈ G, ¬ s.Leads a b

theorem forest_iff : s.Forest ↔ Acyclic s.Leads :=
  ⟨Forest.acyclic, fun h => ⟨h, fun _ => h.exists_sink⟩⟩

/-- Everyone as its program starts. -/
def Start : Prop := ∀ a, Started (programAt o a) (s.node a)

end Overlay

def OverlayStep (o : Addr) (s : Overlay) (l : OverlayEvent) (t : Overlay) : Prop :=
  s.next o l = some t

/-! ## The link that an event makes -/

/-- The new parent of `a` when an event from `b` sets its parent's bit, or changes its parent.
Two events set the bit again, without a parent to go with it: a Detach when it is clear, and a
Depart that borrows. -/
def Overlay.parentFrom (o : Addr) (s : Overlay) (a b : Addr) : Event → Option Addr
  | .initialStatus .. => if (s.node a).isConnected parentId then none else some b
  | .accept _ => if a = o then none else some b
  | .detach _ => if (s.node a).isConnected parentId then none else some (s.parent a)
  | .depart data =>
      if (s.node a).isConnected parentId = false ∧
          (s.node a).links.BorrowsParent (readLink data).id then
        some (s.parent a)
      else none
  | _ => none

/-- The link that a step makes: from whom, and to whom. -/
def Overlay.makes (o : Addr) (s : Overlay) : OverlayEvent → Option (Addr × Addr)
  | .own _ _ _ => none
  | .deliver b a _ k rest =>
      (s.arrives b a k rest).bind fun e => (s.parentFrom o a b e).map fun c => (a, c)

/-- A node takes no parent that stands below it. -/
def NotFromBelow (o : Addr) (s : Overlay) (l : OverlayEvent) : Prop :=
  ∀ a b, s.makes o l = some (a, b) → ¬ Relation.ReflTransGen s.Leads b a

/-! ## One step -/

section Step

variable {o a b : Addr} {s t : Overlay} {env : Env} {e : Event} {n : Node} {l : OverlayEvent}

theorem behind_self : (s.behind o a b e n).node a = n := Function.update_self ..

theorem behind_own (he : isOwn e = true) :
    s.behind o a b e n = { s with node := Function.update s.node a n } := by
  have hno : fillsParent (programAt o a) e = false := by
    cases e <;> first | rfl | cases he
  simp only [Overlay.behind, hno, Bool.false_eq_true, if_false]

theorem parentFrom_own (he : isOwn e = true) : s.parentFrom o a b e = none := by
  cases e <;> first | rfl | cases he

theorem nodeStep_of_toOption {program : Program} {m : Node}
    (h : (m.step program env e).toOption = some n) : NodeStep program m (env, e) n := by
  cases hstep : m.step program env e with
  | error fault => rw [hstep] at h; cases h
  | ok n' =>
      rw [hstep] at h
      cases h
      exact hstep

theorem parentFrom_spec (h : NodeStep (programAt o a) (s.node a) (env, e) n) :
    match s.parentFrom o a b e with
    | some c => n.isConnected parentId = true ∧ (s.behind o a b e n).parent a = c
    | none => n.isConnected parentId = true →
        (s.node a).isConnected parentId = true ∧ (s.behind o a b e n).parent a = s.parent a := by
  have hbit := step_parentBit h
  have hkept : fillsParent (programAt o a) e = false →
      (s.behind o a b e n).parent a = s.parent a := by
    intro hno
    simp only [Overlay.behind, hno, Bool.false_eq_true, if_false]
  have hfilled : fillsParent (programAt o a) e = true → (s.behind o a b e n).parent a = b := by
    intro hyes
    simp only [Overlay.behind, hyes, if_true, Function.update_self]
  have hsame : fillsParent (programAt o a) e = false →
      parentBitAfter (programAt o a) env (s.node a) e = (s.node a).isConnected parentId →
      n.isConnected parentId = true →
        (s.node a).isConnected parentId = true ∧ (s.behind o a b e n).parent a = s.parent a :=
    fun hno hafter hset => ⟨by rw [← hafter, ← hbit, hset], hkept hno⟩
  cases e with
  | initialStatus data k =>
      have hflip : n.isConnected parentId = !(s.node a).isConnected parentId := hbit
      cases hset : (s.node a).isConnected parentId with
      | true =>
          simp only [Overlay.parentFrom, hset, if_true]
          rw [hflip, hset]
          exact fun h => nomatch h
      | false =>
          simp only [Overlay.parentFrom, hset, Bool.false_eq_true, if_false]
          exact ⟨by rw [hflip, hset]; rfl, hfilled (by cases programAt o a <;> rfl)⟩
  | detach data =>
      have hflip : n.isConnected parentId = !(s.node a).isConnected parentId := hbit
      cases hset : (s.node a).isConnected parentId with
      | true =>
          simp only [Overlay.parentFrom, hset, if_true]
          rw [hflip, hset]
          exact fun h => nomatch h
      | false =>
          simp only [Overlay.parentFrom, hset, Bool.false_eq_true, if_false]
          exact ⟨by rw [hflip, hset]; rfl, hkept (by cases programAt o a <;> rfl)⟩
  | accept data =>
      by_cases ho : a = o
      · simp only [Overlay.parentFrom, if_pos ho]
        have hprogram : programAt o a = .origin := if_pos ho
        rw [hprogram] at hsame
        exact hsame rfl (Bool.or_false _)
      · simp only [Overlay.parentFrom, if_neg ho]
        have hprogram : programAt o a = .peer := if_neg ho
        rw [hprogram] at hbit hfilled
        exact ⟨hbit.trans (Bool.or_true _), hfilled rfl⟩
  | depart data =>
      have hxor : n.isConnected parentId = ((s.node a).isConnected parentId ^^
          decide ((s.node a).links.BorrowsParent (readLink data).id)) := hbit
      have hno : fillsParent (programAt o a) (.depart data) = false := by
        cases programAt o a <;> rfl
      cases hset : (s.node a).isConnected parentId with
      | true =>
          simp only [Overlay.parentFrom, hset, Bool.true_eq_false, false_and, if_false]
          exact fun _ => ⟨trivial, hkept hno⟩
      | false =>
          rw [hset, Bool.false_xor] at hxor
          by_cases hborrows : (s.node a).links.BorrowsParent (readLink data).id
          · simp only [Overlay.parentFrom, hset, hborrows, and_self, if_true]
            exact ⟨by rw [hxor]; exact decide_eq_true hborrows, hkept hno⟩
          · simp only [Overlay.parentFrom, hset, hborrows, and_false, if_false]
            rw [hxor, decide_eq_false hborrows]
            exact fun h => nomatch h
  | timeout slot =>
      intro hset
      have hand : n.isConnected parentId = ((s.node a).isConnected parentId &&
          !(isTimedOut env slot (s.node a) && decide (slot = parentId))) := hbit
      rw [hset] at hand
      exact ⟨(Bool.and_eq_true_iff.mp hand.symm).1, hkept (by cases programAt o a <;> rfl)⟩
  | _ => exact hsame (by cases programAt o a <;> rfl) rfl

theorem leads_behind_of_ne {x : Addr} (hx : x ≠ a) (y : Addr) :
    (s.behind o a b e n).Leads x y ↔ s.Leads x y := by
  simp only [Overlay.Leads, Overlay.behind, Function.update_of_ne hx]
  split
  · rw [Function.update_of_ne hx]
  · rfl

/-- An event that makes no link keeps some of the old links, and no other. -/
theorem leads_none (h : NodeStep (programAt o a) (s.node a) (env, e) n)
    (hnone : s.parentFrom o a b e = none) (x y : Addr) (hlead : (s.behind o a b e n).Leads x y) :
    s.Leads x y := by
  have hspec := parentFrom_spec (b := b) h
  rw [hnone] at hspec
  by_cases hx : x = a
  · subst hx
    have hset : n.isConnected parentId = true := by
      have hbit := hlead.1
      rwa [behind_self] at hbit
    obtain ⟨hwas, hparent⟩ := hspec hset
    exact ⟨hwas, hparent.symm.trans hlead.2⟩
  · exact (leads_behind_of_ne hx y).mp hlead

theorem leads_some {c : Addr} (h : NodeStep (programAt o a) (s.node a) (env, e) n)
    (hsome : s.parentFrom o a b e = some c) (x y : Addr) :
    (s.behind o a b e n).Leads x y ↔ relink s.Leads a c x y := by
  have hspec := parentFrom_spec (b := b) h
  rw [hsome] at hspec
  obtain ⟨hset, hparent⟩ := hspec
  by_cases hx : x = a
  · subst hx
    have hbit : ((s.behind o x b e n).node x).isConnected parentId = true := by
      rw [behind_self]
      exact hset
    constructor
    · rintro ⟨-, hy⟩
      exact .inl ⟨rfl, hy.symm.trans hparent⟩
    · rintro (⟨-, rfl⟩ | ⟨hne, -⟩)
      · exact ⟨hbit, hparent⟩
      · exact absurd rfl hne
  · rw [leads_behind_of_ne hx]
    exact ⟨fun hold => .inr ⟨hx, hold⟩,
      fun hnew => hnew.elim (fun hend => absurd hend.1 hx) And.right⟩

/-- From a forest: a step keeps it exactly when nobody takes a parent from below. -/
theorem forest_step (h : s.Forest) (hstep : OverlayStep o s l t) :
    t.Forest ↔ NotFromBelow o s l := by
  rw [Overlay.forest_iff]
  cases l with
  | own a env e =>
      simp only [OverlayStep, Overlay.next, Option.bind_eq_bind, Option.bind_eq_some_iff] at hstep
      obtain ⟨n, hn, hstep⟩ := hstep
      split at hstep
      · next hown =>
        obtain rfl := Option.some.inj hstep
        rw [← behind_own (b := a) hown]
        exact iff_of_true
          (h.acyclic.mono (leads_none (nodeStep_of_toOption hn) (parentFrom_own hown)))
          fun x y hmakes => nomatch hmakes
      · cases hstep
  | deliver b a env k rest =>
      simp only [OverlayStep, Overlay.next, Option.bind_eq_bind, Option.bind_eq_some_iff] at hstep
      obtain ⟨e, he, n, hn, hstep⟩ := hstep
      obtain rfl := Option.some.inj hstep
      have hnode := nodeStep_of_toOption hn
      cases hfrom : s.parentFrom o a b e with
      | none =>
          refine iff_of_true (h.acyclic.mono (leads_none hnode hfrom)) fun x y hmakes => ?_
          simp [Overlay.makes, he, hfrom] at hmakes
      | some c =>
          have hmakes : s.makes o (.deliver b a env k rest) = some (a, c) := by
            simp [Overlay.makes, he, hfrom]
          have hrelink : (s.behind o a b e n).Leads = relink s.Leads a c := by
            funext x y
            exact propext (leads_some hnode hfrom x y)
          rw [hrelink, acyclic_relink_iff h.acyclic]
          constructor
          · intro hback x y hxy
            obtain ⟨rfl, rfl⟩ := Prod.mk.injEq .. |>.mp (Option.some.inj (hmakes.symm.trans hxy))
            exact hback
          · exact fun hguard => hguard a c hmakes

end Step

/-! ## Runs -/

theorem Overlay.Start.forest {o : Addr} {s : Overlay} (h : s.Start o) : s.Forest := by
  have hnone : ∀ x y, ¬ s.Leads x y := by
    rintro x y ⟨hset, -⟩
    have hzero : (s.node x).connectedNodes = 0#8 := (h x).links.1
    rw [Node.isConnected, hzero] at hset
    exact absurd hset (by decide)
  refine (Overlay.forest_iff s).mpr fun a hback => ?_
  obtain ⟨b, hab, -⟩ := Relation.TransGen.head'_iff.mp hback
  exact hnone a b hab

/-- In every run, of any nodes, with packets lost, repeated and in any order, the links to the
parents are a forest in every state exactly when no node takes a parent that stands below it. -/
theorem forest_iff_guarded {o : Addr} {s t : Overlay} {ls : List OverlayEvent}
    (hstart : s.Start o) :
    Run (Guarded (OverlayStep o) (NotFromBelow o)) s ls t ↔
      Run (Safe (OverlayStep o) fun _ _ u => u.Forest) s ls t := by
  refine Run.guarded_iff_safe Overlay.Forest ?_ ?_ hstart.forest
  · intro u l v hu hguard hstep
    have hforest := (forest_step hu hstep).mpr hguard
    exact ⟨hforest, hforest⟩
  · exact fun u l v hu hstep hgood => (forest_step hu hstep).mp hgood

/-! ## A node that joins -/

/-- The steps of a run, computed. -/
def Overlay.exec (o : Addr) (s : Overlay) (ls : List OverlayEvent) : Option Overlay :=
  ls.foldlM (Overlay.next o) s

theorem Overlay.run_exec {o : Addr} {s t : Overlay} {ls : List OverlayEvent}
    (h : s.exec o ls = some t) : Run (OverlayStep o) s ls t := by
  induction ls generalizing s with
  | nil =>
      cases h
      exact .nil _
  | cons l ls ih =>
      rw [exec, List.foldlM_cons, Option.bind_eq_bind, Option.bind_eq_some_iff] at h
      obtain ⟨u, hfirst, hrest⟩ := h
      exact .cons hfirst (ih hrest)

/-- The origin at 10.0.0.1. -/
def originAddr : Addr := (0x0100000a, osPort)

/-- Everyone at the start. -/
def treeStart : Overlay where
  node := fun a => if a = originAddr then firstOrigin
    else peerStart (Env.clock ⟨0, 0⟩) a.1 0x0100000a a.2 Timeval.zero freshBlocks
  parent := id

theorem treeStart_start : treeStart.Start originAddr := by
  intro a
  by_cases ha : a = originAddr
  · simp only [treeStart, programAt, if_pos ha]
    exact .origin ..
  · simp only [treeStart, programAt, if_neg ha]
    exact .peer ..

/-- At second `now`. -/
def ownAt (now : Int) (a : Addr) (e : Event) : OverlayEvent := .own a (Env.clock ⟨now, 0⟩) e
def deliverAt (now : Int) (b a : Addr) (k : Nat) : OverlayEvent :=
  .deliver b a (Env.clock ⟨now, 0⟩) k Buf.zero

/-- The peer at 10.0.0.2 joins at the origin, whose cache is full. -/
def joinMoves : List OverlayEvent :=
  [ownAt 1 originAddr .timeCache, deliverAt 2 addr2 originAddr 0, deliverAt 3 originAddr addr2 1]

/-- The state behind a step, if it can be taken. -/
def Overlay.after (o : Addr) (s : Overlay) (l : OverlayEvent) : Overlay := (s.next o l).getD s

theorem Overlay.after_step {o : Addr} {s : Overlay} {l : OverlayEvent}
    (h : (s.next o l).isSome = true) : OverlayStep o s l (s.after o l) := by
  obtain ⟨t, ht⟩ := Option.isSome_iff_exists.mp h
  rw [OverlayStep, after, ht]
  rfl

theorem notFromBelow_of_none {o : Addr} {s : Overlay} {l : OverlayEvent}
    (h : s.makes o l = none) : NotFromBelow o s l := by
  intro a b hmakes
  rw [h] at hmakes
  cases hmakes

theorem reaches_of_clear {s : Overlay} {a b : Addr}
    (hclear : (s.node b).isConnected parentId = false)
    (h : Relation.ReflTransGen s.Leads b a) : b = a := by
  rcases Relation.ReflTransGen.cases_head h with rfl | ⟨c, hbc, -⟩
  · rfl
  · exact absurd (hbc.1.symm.trans hclear) (by decide)

/-- Under the guard, the peer has the origin for its parent. -/
theorem forest_iff_guarded_join : ∃ t, Run (Safe (OverlayStep originAddr) fun _ _ u => u.Forest)
    treeStart joinMoves t ∧ t.Leads addr2 originAddr := by
  let full := treeStart.after originAddr (ownAt 1 originAddr .timeCache)
  let admitting := full.after originAddr (deliverAt 2 addr2 originAddr 0)
  have hfull : OverlayStep originAddr treeStart _ full := Overlay.after_step (by decide +kernel)
  have hadmitting : OverlayStep originAddr full _ admitting :=
    Overlay.after_step (by decide +kernel)
  have hjoined := Overlay.after_step (o := originAddr) (s := admitting)
    (l := deliverAt 3 originAddr addr2 1) (by decide +kernel)
  have hbelow : NotFromBelow originAddr admitting (deliverAt 3 originAddr addr2 1) := by
    have hmakes : admitting.makes originAddr (deliverAt 3 originAddr addr2 1) =
        some (addr2, originAddr) := by decide +kernel
    intro a b hab hreaches
    rw [hmakes] at hab
    cases hab
    have hclear : (admitting.node originAddr).isConnected parentId = false := by decide +kernel
    exact absurd (reaches_of_clear hclear hreaches) (by decide)
  refine ⟨_, (forest_iff_guarded treeStart_start).mp
    (.cons ⟨notFromBelow_of_none rfl, hfull⟩ <|
      .cons ⟨notFromBelow_of_none (by decide +kernel), hadmitting⟩ <|
      .cons ⟨hbelow, hjoined⟩ (.nil _)), ?_⟩
  show (_ ∧ _)
  decide +kernel

/-! ## Two nodes that lose the origin -/

/-- The origin's file behind three clusters, the second of which is the last that is complete. -/
def threeClusters : Webm :=
  let file := (List.replicate 3 (clusterBytes smallPayload.bytes)).flatten
  { firstOrigin.webm with
    file
    totalFileBytes := file.length
    prevCluster := { Cluster.zero with seq := 1 }
    currentCluster := { Cluster.zero with seq := 2 } }

/-- The peers at 10.0.0.2 and 10.0.0.3 join at the origin and are sent a block; the first asks for
the origin's list, which names the second.  The block is repeated until their caches are full.
The first finds the origin gone and goes to the second; the second finds it gone and goes to the
first. -/
def cycleMoves : List OverlayEvent :=
  [ownAt 1 originAddr .timeCache, ownAt 1 originAddr (.main threeClusters),
    deliverAt 2 addr2 originAddr 0, deliverAt 2 originAddr addr2 1,
    deliverAt 3 addr3 originAddr 0, deliverAt 3 originAddr addr3 4,
    ownAt 4 originAddr .mulStream,
    ownAt 8 addr2 .timeList, deliverAt 8 addr2 originAddr 1, deliverAt 8 originAddr addr2 8] ++
  List.replicate 200 (deliverAt 9 originAddr addr2 6) ++
  List.replicate 200 (deliverAt 9 originAddr addr3 7) ++
  [ownAt 9 addr2 .timeCache, ownAt 9 addr3 .timeCache,
    ownAt 10 addr2 (.timeout parentId), deliverAt 10 addr2 addr3 3, deliverAt 10 addr3 addr2 1,
    ownAt 11 addr3 (.timeout parentId), deliverAt 11 addr3 addr2 2, deliverAt 11 addr2 addr3 4]

/-- Each of the two is the other's parent. -/
theorem parents_cycle : treeStart.Start originAddr ∧
    ∃ ls t, Run (OverlayStep originAddr) treeStart ls t ∧
      t.Leads addr2 addr3 ∧ t.Leads addr3 addr2 ∧
      ((t.node addr2).nodesStatus parentId).id = (t.node addr3).myStatus.id ∧
      ((t.node addr3).nodesStatus parentId).id = (t.node addr2).myStatus.id ∧ ¬ t.Forest := by
  have hcycle : (treeStart.exec originAddr cycleMoves).any (fun t =>
      decide (((t.node addr2).isConnected parentId = true ∧ t.parent addr2 = addr3) ∧
        ((t.node addr3).isConnected parentId = true ∧ t.parent addr3 = addr2) ∧
        ((t.node addr2).nodesStatus parentId).id = (t.node addr3).myStatus.id ∧
        ((t.node addr3).nodesStatus parentId).id = (t.node addr2).myStatus.id)) = true := by
    decide +kernel
  obtain ⟨t, hexec, ht⟩ := (Option.any_eq_true ..).mp hcycle
  obtain ⟨h₂₃, h₃₂, hid₂, hid₃⟩ := of_decide_eq_true ht
  exact ⟨treeStart_start, cycleMoves, t, Overlay.run_exec hexec, h₂₃, h₃₂, hid₂, hid₃,
    fun hforest => hforest.acyclic addr2 (.tail (.single h₂₃) h₃₂)⟩

end P2PStream
