/-
# `P2PStream.Node.Clocks` — what restarts a clock

A node keeps a timestamp for every slot and one for each section of the timer loop.
Every handler that writes one writes the current time, so a timestamp says when its clock
was restarted last: `restarted` lists the events that restart it.
-/
import P2PStream.Node.Links

namespace P2PStream

open Lib

/-- The timestamps of a node. -/
inductive Clock where
  | slot (s : Slot)
  | keepAlive
  | setup
  | list
  | depart
  | retry
  | played
  deriving DecidableEq, Repr

def Node.clocks (n : Node) : Clock → Timeval
  | .slot s => (n.nodesStatus s).timestamp
  | .keepAlive => n.timestamp
  | .setup => n.setupTimestamp
  | .list => n.listupdateTimestamp
  | .depart => n.departTimestamp
  | .retry => n.retryTimestamp
  | .played => n.playedTimestamp

instance (env : Env) (id : UInt16) (n : Node) : Decidable (AdmitsConnect env id n) :=
  inferInstanceAs (Decidable (_ ∧ _ ∧ _))

instance decAdmitsSetup (env : Env) (n : Node) : Decidable (AdmitsSetup env n) :=
  inferInstanceAs (Decidable (_ ∧ _ ∧ _))

/-- The slot that an admission fills. -/
def admitsTo (admits : Bool) (n : Node) (s : Slot) : Bool :=
  admits && (checkChildNum n).any fun i => s = childSlot i

/-- The played clock: a block counts as played, or the cache is full. -/
def restartsPlayed (env : Env) (n : Node) : Bool :=
  (n.myStatus.id ≠ originId && n.isBeginPlaying &&
    n.exceeds env n.playedTimestamp playedInterval) ||
    (timeCache env n).currentCache = defaultCache

/-- The clocks that an event restarts. -/
def restarted (program : Program) (env : Env) (n : Node) : Event → Clock → Bool
  | .setup .., .slot s => admitsTo (AdmitsSetup env n) n s
  | .connect data, .slot s => admitsTo (AdmitsConnect env (readLink data).id n) n s
  | .initialStatus .., .slot s => s = parentId
  | .initialStatus .., .list => true
  | .initialStatus .., .depart => true
  | .advertise .., .setup => true
  | .detach _, .depart => true
  | .detach _, .retry => true
  | .accept _, .slot s => program = .peer && s = parentId
  | .keepAliveRes data, .slot s => n.isConnected s && (n.nodesStatus s).id = readU16 data
  | .timeKeepAlive, .keepAlive => n.exceeds env n.timestamp timeprocessInterval
  | .timeSetup, .setup => n.isSetup && n.exceeds env n.setupTimestamp fiveSeconds
  | .timeout s, .retry => isTimedOut env s n && s = parentId
  | .timeList, .list => n.exceeds env n.listupdateTimestamp fiveSeconds && n.isConnected parentId
  | .timeRetry, .retry => n.isRetry && n.exceeds env n.retryTimestamp fiveSeconds
  | .timeCache, .played => restartsPlayed env n
  | .timeDepart, .depart =>
      n.currentCache < cacheTlv && n.isBeginStreaming &&
        n.exceeds env n.departTimestamp fiveSeconds
  | _, _ => false

/-- The clocks in `r` are restarted, the others go on. -/
def Restarts (env : Env) (r : Clock → Bool) (n n' : Node) : Prop :=
  ∀ c, n'.clocks c = if r c then n.stamp env else n.clocks c

section Restarts

variable {env : Env} {n n' : Node}

theorem Restarts.none {r : Clock → Bool} (hr : ∀ c, r c = false) (h : n'.clocks = n.clocks) :
    Restarts env r n n' := by
  intro c
  rw [hr c, h]
  rfl

theorem setStatus_clocks (s : Slot) (status : NodeStatus) (n : Node) :
    (n.setStatus s status).clocks = Function.update n.clocks (.slot s) status.timestamp := by
  funext c
  cases c with
  | slot t =>
      simp only [Node.clocks, Node.setStatus, Function.update_apply, Clock.slot.injEq]
      split <;> rfl
  | _ => rfl

theorem setStatus_clocks_same {s : Slot} {status : NodeStatus}
    (h : status.timestamp = (n.nodesStatus s).timestamp) :
    (n.setStatus s status).clocks = n.clocks := by
  rw [setStatus_clocks, h]
  exact Function.update_eq_self (Clock.slot s) n.clocks

theorem Talks.clocks {n n' : Node} (h : Talks n n') : n'.clocks = n.clocks := by
  obtain ⟨ip, port, ps, rfl, -⟩ := h
  rfl

/-! ## Admissions -/

theorem admitChild_clocks (i : Fin maxChildNum) (n : Node) :
    (admitChild env i n).clocks = Function.update n.clocks (.slot (childSlot i)) (n.stamp env) := by
  have hlast : (admitChild env i n).clocks = (n.setStatus (childSlot i)
      { n.nodesStatus (childSlot i) with timestamp := n.stamp env }).clocks := by
    funext c
    cases c <;> rfl
  rw [hlast, setStatus_clocks]

theorem restarts_of_update {admits : Bool} {i : Fin maxChildNum} {r : Clock → Bool}
    (hadm : admits = true) (hi : checkChildNum n = some i)
    (hslot : ∀ s, r (.slot s) = admitsTo admits n s)
    (hother : ∀ c, (∀ s, c ≠ .slot s) → r c = false)
    (h : n'.clocks = Function.update n.clocks (.slot (childSlot i)) (n.stamp env)) :
    Restarts env r n n' := by
  intro c
  rw [h]
  cases c with
  | slot s =>
      rw [hslot, admitsTo, hadm, hi, Function.update_apply]
      simp only [Option.any_some, Bool.true_and, decide_eq_true_eq, Clock.slot.injEq]
  | _ =>
      rw [hother _ (fun s hs => Clock.noConfusion hs), Function.update_of_ne (fun hs =>
        Clock.noConfusion hs)]
      rfl

theorem restarts_of_refused {admits : Bool} {r : Clock → Bool} (hadm : admits = false)
    (hslot : ∀ s, r (.slot s) = admitsTo admits n s)
    (hother : ∀ c, (∀ s, c ≠ .slot s) → r c = false) (h : n'.clocks = n.clocks) :
    Restarts env r n n' := by
  refine .none (fun c => ?_) h
  cases c with
  | slot s => rw [hslot, admitsTo, hadm, Bool.false_and]
  | _ => exact hother _ fun s hs => Clock.noConfusion hs

theorem receiveSetup_clocks (program : Program) (k : UInt16) (saddr : UInt32) (source : UInt16)
    (n : Node) : (receiveSetup program k saddr source n).clocks = n.clocks := by
  unfold receiveSetup
  split
  · split <;> rfl
  · rfl

theorem receiveSetup_stamp (program : Program) (k : UInt16) (saddr : UInt32) (source : UInt16)
    (n : Node) : (receiveSetup program k saddr source n).stamp env = n.stamp env := by
  unfold receiveSetup
  split
  · split <;> rfl
  · rfl

theorem setupChild_clocks (data : Buf) (saddr : UInt32) (port : UInt16) (i : Fin maxChildNum)
    (n : Node) : (setupChild data saddr port i n).clocks = n.clocks := by
  simp only [setupChild]
  exact setStatus_clocks_same rfl

theorem connectChild_clocks (data : Buf) (i : Fin maxChildNum) (n : Node) :
    (connectChild data i n).clocks = n.clocks := by
  simp only [connectChild]
  exact setStatus_clocks_same rfl

theorem nodeSetup_clocks {data : Buf} {saddr : UInt32} {source : UInt16}
    (h : nodeSetup env data saddr source n = .ok n') :
    (¬ AdmitsSetup env n ∧ n'.clocks = n.clocks) ∨ (AdmitsSetup env n ∧ ∃ i,
      checkChildNum n = some i ∧
        n'.clocks = Function.update n.clocks (.slot (childSlot i)) (n.stamp env)) := by
  rcases nodeSetup_cases h with ⟨hnot, ad, rfl⟩ | ⟨hadm, i, hi, rfl⟩
  · exact .inl ⟨hnot, rfl⟩
  · refine .inr ⟨hadm, i, hi, ?_⟩
    let child := setupChild data saddr (htons source) i
      (renewDstIPandMAC saddr (htons source) (childSlot i) n)
    have hchild : child.clocks = n.clocks := setupChild_clocks data saddr (htons source) i _
    have hsent : (sendWebMHeader (childSlot i) (sendInitialStatus (childSlot i) child)).clocks =
        child.clocks := rfl
    rw [setupAdmission, admitChild_clocks, hsent, hchild]
    rfl

theorem nodeConnect_clocks {data : Buf} (h : nodeConnect env data n = .ok n') :
    (¬ AdmitsConnect env (readLink data).id n ∧ n'.clocks = n.clocks) ∨
      (AdmitsConnect env (readLink data).id n ∧ ∃ i, checkChildNum n = some i ∧
        n'.clocks = Function.update n.clocks (.slot (childSlot i)) (n.stamp env)) := by
  rcases nodeConnect_cases h with ⟨hnot, hsame | hunaccept⟩ | ⟨hadm, i, hi, rfl⟩
  · exact .inl ⟨hnot, congrArg Node.clocks hsame⟩
  · refine .inl ⟨hnot, ?_⟩
    rw [hunaccept]
    rfl
  · refine .inr ⟨hadm, i, hi, ?_⟩
    let child := connectChild data i
      (renewDstIPandMAC (htonl (readLink data).ipaddr) (readLink data).port (childSlot i) n)
    have hchild : child.clocks = n.clocks := connectChild_clocks data i _
    have hsent : (sendAccept (childSlot i) child).clocks = child.clocks := rfl
    rw [connectAdmission, admitChild_clocks, hsent, hchild]
    rfl

/-! ## The other handlers -/

theorem nodeRetry_clocks (h : nodeRetry env n = .ok n') :
    n'.clocks = Function.update n.clocks .retry (n.stamp env) := by
  obtain ⟨prior, _, _, -, -, rfl⟩ := nodeRetry_asks h
  refine (connectTo_talks prior _).clocks.trans ((setStatus_clocks_same (by rfl)).trans ?_)
  funext c
  cases c <;> rfl

theorem nodeDetach_clocks {data : Buf} (h : nodeDetach env data n = .ok n') :
    n'.clocks = Function.update (Function.update n.clocks .depart (n.stamp env)) .retry
      (n.stamp env) := by
  obtain ⟨prior, _, -, rfl⟩ := nodeDetach_asks h
  refine (connectTo_talks prior _).clocks.trans ((setStatus_clocks_same (by rfl)).trans ?_)
  refine (setStatus_clocks_same (by rfl)).trans ?_
  funext c
  cases c <;> rfl

theorem nodeAccept_clocks (data : Buf) (n : Node) :
    (nodeAccept env data n).clocks =
      Function.update n.clocks (.slot parentId) (n.stamp env) := by
  obtain ⟨parent, _, _, hafter, hparent, -⟩ := nodeAccept_changes env data n
  have hstamp : parent.timestamp = n.stamp env := by
    rw [hparent]
    rfl
  have hrecorded : ((n.setStatus parentId parent).setStatus myId
      { n.myStatus with layer := parent.layer + 1 }).clocks =
        Function.update n.clocks (.slot parentId) (n.stamp env) := by
    refine (setStatus_clocks_same (by rfl)).trans ?_
    rw [setStatus_clocks, hstamp]
  rw [hafter, ← hrecorded]
  rfl

theorem nodeInitialStatus_clocks (data : Buf) (k : UInt16) (n : Node) (c : Clock) :
    (nodeInitialStatus env data k n).clocks c =
      if c = .slot parentId ∨ c = .list ∨ c = .depart then n.stamp env else n.clocks c := by
  cases c with
  | slot s =>
      simp only [Clock.slot.injEq, reduceCtorEq, or_false, Node.clocks, nodeInitialStatus,
        Node.connect, Node.setStatus, Function.update_apply]
      split
      · rfl
      · split
        · next hs => rw [hs]; rfl
        · rfl
  | _ => rfl

theorem nodeKeepAliveRes_clocks (data : Buf) (n : Node) (s : Slot) :
    (nodeKeepAliveRes env data n).clocks (.slot s) =
      if n.isConnected s && (n.nodesStatus s).id = readU16 data then n.stamp env
      else n.clocks (.slot s) := by
  simp only [Node.clocks, nodeKeepAliveRes]
  split <;> rfl

/-! ## The timer -/

theorem timeKeepAlive_clocks (n : Node) : (timeKeepAlive env n).clocks =
    if n.exceeds env n.timestamp timeprocessInterval then
      Function.update n.clocks .keepAlive (n.stamp env)
    else n.clocks := by
  refine (timeKeepAlive_talks env n).clocks.trans (funext fun c => ?_)
  split <;> cases c <;> rfl

theorem timeList_clocks (n : Node) : (timeList env n).clocks =
    if n.exceeds env n.listupdateTimestamp fiveSeconds && n.isConnected parentId then
      Function.update n.clocks .list (n.stamp env)
    else n.clocks := by
  refine (timeList_talks env n).clocks.trans (funext fun c => ?_)
  split <;> cases c <;> rfl

theorem timeDepart_clocks (n : Node) : (timeDepart env n).clocks =
    if n.currentCache < cacheTlv && n.isBeginStreaming &&
        n.exceeds env n.departTimestamp fiveSeconds then
      Function.update n.clocks .depart (n.stamp env)
    else n.clocks := by
  refine (timeDepart_talks env n).clocks.trans (funext fun c => ?_)
  split <;> cases c <;> rfl

theorem timeSetup_clocks (n : Node) : (timeSetup env n).clocks =
    if n.isSetup && n.exceeds env n.setupTimestamp fiveSeconds then
      Function.update n.clocks .setup (n.stamp env)
    else n.clocks := by
  refine (timeSetup_talks env n).clocks.trans (funext fun c => ?_)
  split <;> cases c <;> rfl

theorem timeout_clocks {s : Slot} (h : timeout env s n = .ok n') : n'.clocks =
    if isTimedOut env s n && s = parentId then Function.update n.clocks .retry (n.stamp env)
    else n.clocks := by
  rcases timeout_cases h with ⟨hin, rfl⟩ | ⟨hout, ⟨hs, rfl⟩ | ⟨hs, hretry⟩⟩
  · rw [hin]
    rfl
  · rw [hout, decide_eq_false hs]
    rfl
  · rw [nodeRetry_clocks hretry, hout, decide_eq_true hs]
    rfl

theorem calPlayedBuffer_clocks (n : Node) : (calPlayedBuffer env n).clocks =
    if n.myStatus.id ≠ originId && n.isBeginPlaying &&
        n.exceeds env n.playedTimestamp playedInterval
    then Function.update n.clocks .played (n.stamp env) else n.clocks := by
  obtain ⟨_, _, hafter⟩ := calPlayedBuffer_changes env n
  rw [hafter]
  funext c
  split <;> cases c <;> rfl

theorem calPlayedBuffer_stamp (n : Node) : (calPlayedBuffer env n).stamp env = n.stamp env := by
  obtain ⟨_, _, hafter⟩ := calPlayedBuffer_changes env n
  rw [hafter]
  rfl

theorem timeCache_clocks (n : Node) : (timeCache env n).clocks =
    if restartsPlayed env n then Function.update n.clocks .played (n.stamp env) else n.clocks := by
  let played := calPlayedBuffer env n
  let cached := { played with
    currentCache := (played.totalBuffer - played.playedBuffer).toBitVec.toInt }
  have hcached : cached.clocks = played.clocks := rfl
  by_cases hfull : cached.currentCache = defaultCache
  · have hafter : timeCache env n = { cached with
        isBeginStreaming := true
        isBeginPlaying := true
        playedTimestamp := cached.stamp env } := if_pos hfull
    have hrestarts : restartsPlayed env n = true := by
      rw [restartsPlayed, hafter,
        decide_eq_true (show cached.currentCache = defaultCache from hfull), Bool.or_true]
    have hstamp : cached.stamp env = n.stamp env := calPlayedBuffer_stamp n
    have hlast : (timeCache env n).clocks = Function.update cached.clocks .played
        (cached.stamp env) := by
      rw [hafter]
      funext c
      cases c <;> rfl
    rw [if_pos hrestarts, hlast, hcached, hstamp, calPlayedBuffer_clocks]
    split
    · exact Function.update_idem ..
    · rfl
  · have hafter : timeCache env n = cached := if_neg hfull
    have hrestarts : restartsPlayed env n = (n.myStatus.id ≠ originId && n.isBeginPlaying &&
        n.exceeds env n.playedTimestamp playedInterval) := by
      rw [restartsPlayed, hafter, decide_eq_false hfull, Bool.or_false]
    rw [hafter, hrestarts, hcached]
    exact calPlayedBuffer_clocks n

/-! ## Every step -/

theorem restarts_update {r : Clock → Bool} {k : Clock} {b : Bool} (hr : ∀ c, r c = (b && c = k))
    (h : n'.clocks = if b then Function.update n.clocks k (n.stamp env) else n.clocks) :
    Restarts env r n n' := by
  intro c
  rw [h, hr]
  cases b with
  | true => simp only [if_true, Bool.true_and, decide_eq_true_eq, Function.update_apply]
  | false => rfl

/-- Every event restarts its clocks and leaves the others alone. -/
theorem step_clocks {program : Program} {e : Event} (h : n.step program env e = .ok n') :
    Restarts env (restarted program env n e) n n' := by
  cases e with
  | setup data k saddr source =>
      have hchild := checkChildNum_receiveSetup program k saddr source n
      have hadmits := admitsSetup_receiveSetup env program k saddr source n
      rcases nodeSetup_clocks h with ⟨hno, hsame⟩ | ⟨hyes, i, hi, hupdate⟩
      · rw [hadmits] at hno
        exact restarts_of_refused (decide_eq_false hno) (fun _ => rfl)
          (fun c hc => by cases c <;> first | rfl | exact absurd rfl (hc _))
          (hsame.trans (receiveSetup_clocks program k saddr source n))
      · rw [hadmits] at hyes
        rw [hchild] at hi
        rw [receiveSetup_clocks, receiveSetup_stamp] at hupdate
        exact restarts_of_update (decide_eq_true hyes) hi (fun _ => rfl)
          (fun c hc => by cases c <;> first | rfl | exact absurd rfl (hc _)) hupdate
  | connect data =>
      rcases nodeConnect_clocks h with ⟨hno, hsame⟩ | ⟨hyes, i, hi, hupdate⟩
      · exact restarts_of_refused (decide_eq_false hno) (fun _ => rfl)
          (fun c hc => by cases c <;> first | rfl | exact absurd rfl (hc _)) hsame
      · exact restarts_of_update (decide_eq_true hyes) hi (fun _ => rfl)
          (fun c hc => by cases c <;> first | rfl | exact absurd rfl (hc _)) hupdate
  | id data =>
      refine .none (fun _ => rfl) ?_
      cases program with
      | origin => cases h; rfl
      | peer => cases h; exact setStatus_clocks_same rfl
  | initialStatus data k =>
      cases h
      intro c
      rw [nodeInitialStatus_clocks]
      cases c <;> simp [restarted]
  | advertise data k =>
      cases h
      intro c
      rw [(nodeAdvertise_talks env data k n).clocks]
      cases c <;> rfl
  | block data k =>
      refine .none (fun _ => rfl) ?_
      cases program with
      | origin => cases h; rfl
      | peer =>
          obtain ⟨webm, -, h⟩ := bind_eq_ok.mp h
          cases h
          rfl
  | depart data =>
      obtain ⟨count, connected, htalks⟩ := nodeDepart_talks h
      exact .none (fun _ => rfl) htalks.clocks
  | detach data =>
      intro c
      rw [nodeDetach_clocks h]
      cases c <;> rfl
  | reqList data => cases h; exact .none (fun _ => rfl) (nodeReqList_talks data n).clocks
  | resList data k => exact .none (fun _ => rfl) (by cases program <;> cases h <;> rfl)
  | accept data =>
      cases program with
      | origin =>
          cases h
          refine .none (fun c => ?_) rfl
          cases c <;> rfl
      | peer =>
          cases h
          intro c
          rw [nodeAccept_clocks]
          cases c <;> simp [restarted, Function.update_apply]
  | unaccept data =>
      refine .none (fun _ => rfl) ?_
      cases program with
      | origin => cases h; rfl
      | peer =>
          obtain ⟨prior, _, _, -, -, rfl⟩ := nodeUnaccept_asks h
          exact (connectTo_talks prior _).clocks
  | keepAlive data => cases h; exact .none (fun _ => rfl) (nodeKeepAlive_talks data n).clocks
  | keepAliveRes data =>
      cases h
      intro c
      cases c with
      | slot s => exact nodeKeepAliveRes_clocks data n s
      | _ => rfl
  | mulStream =>
      obtain ⟨_, _, _, _, rfl, -⟩ := step_mulStream_distributes h
      exact .none (fun _ => rfl) rfl
  | timeKeepAlive =>
      cases h
      exact restarts_update (fun c => by cases c <;> simp [restarted]) (timeKeepAlive_clocks n)
  | timeSetup =>
      cases h
      exact restarts_update (fun c => by cases c <;> simp [restarted]) (timeSetup_clocks n)
  | timeout s => exact restarts_update (fun c => by cases c <;> simp [restarted]) (timeout_clocks h)
  | timeList =>
      cases h
      exact restarts_update (fun c => by cases c <;> simp [restarted]) (timeList_clocks n)
  | timeRetry =>
      refine restarts_update (k := .retry)
        (b := n.isRetry && n.exceeds env n.retryTimestamp fiveSeconds)
        (fun c => by cases c <;> simp [restarted]) ?_
      rcases timeRetry_cases h with ⟨hdue, hretry⟩ | ⟨hnot, rfl⟩
      · rw [hdue]
        exact nodeRetry_clocks hretry
      · rw [hnot]
        rfl
  | timeCache =>
      cases h
      exact restarts_update (fun c => by cases c <;> simp [restarted]) (timeCache_clocks n)
  | timeDepart =>
      cases h
      exact restarts_update (fun c => by cases c <;> simp [restarted]) (timeDepart_clocks n)
  | main webm => cases h; exact .none (fun _ => rfl) rfl

end Restarts

end P2PStream
