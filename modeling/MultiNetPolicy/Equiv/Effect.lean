import MultiNetPolicy.Equiv.Hooks

/-!
# What the daemon does to packets

What becomes of a packet at a base chain, told by the policies alone (`Input.verdict`).  The chains
do that between the main flush and the cleanup of the first run for a pod; then the cleanup deletes
what looks up the new sets, and the second run puts it back.  From there on no run for the same
input changes it.

* `first_flush_verdict`: the verdict behind the main flush of a first run.
* `runs_verdict`: the verdict behind two runs and any number of further ones.
* `allowed_iff`: for policies without `except`, the verdict is that of a Kubernetes network policy.
* `nesting_bounded`: no packet comes near the bound of the kernel's jump stack.
-/

namespace MultiNetPolicy

open ByteString ChainMachine Render

/-! ### Rulesets that are told apart by nothing but orders -/

section Alike

variable {bo : ByteOrder} {h : Host} {i : Input} {es : List Event} {k k' : Kernel}

theorem Kernel.WF.alike (wf : k.WF) (ha : k.Alike k') : k'.WF := by
  have hchain : ∀ t c, k'.hasChain t c = k.hasChain t c := by
    intro t c
    unfold Kernel.hasChain Kernel.findChain
    rw [ha.chains]
  refine ⟨?_, ?_, ?_⟩
  · rw [← ha.rules]
    exact wf.handles_nodup
  · rw [← ha.rules, ← ha.nextHandle]
    exact wf.handle_lt
  · rw [← ha.rules]
    intro r hr
    rw [hchain]
    exact wf.chain_exists r hr

/-- Alike rulesets have the same rules. -/
theorem Kernel.Alike.chainRules (ha : k.Alike k') (t c : Str) :
    k'.chainRules t c = k.chainRules t c := by
  unfold Kernel.chainRules Kernel.getRules
  rw [ha.rules]

theorem Kernel.Alike.findSet (ha : k.Alike k') (t n : Str) : k'.findSet t n = k.findSet t n := by
  unfold Kernel.findSet
  rw [ha.sets]

/-- Which keys a set has does not depend on the order of its elements. -/
theorem SameKeys.congr_contents {a b b' : List SetElement} (hab : SameKeys a b)
    (hb : ∀ x, x ∈ contentsOf b ↔ x ∈ contentsOf b') : SameKeys a b' := by
  have hkey : ∀ key, (∃ y ∈ b, y.key = key) ↔ ∃ y ∈ b', y.key = key := by
    have hmem : ∀ (els : List SetElement) key, (∃ y ∈ els, y.key = key) ↔
        ∃ flag, (key, flag) ∈ contentsOf els := by
      intro els key
      simp only [mem_contentsOf]
      constructor
      · rintro ⟨y, hy, hkey⟩
        exact ⟨_, y, hy, hkey, rfl⟩
      · rintro ⟨_, y, hy, hkey, -⟩
        exact ⟨y, hy, hkey⟩
    intro key
    rw [hmem, hmem]
    simp only [hb]
  refine ⟨fun x hx => (hkey x.key).1 (hab.1 x hx), fun y hy => ?_⟩
  obtain ⟨z, hz, hzkey⟩ := (hkey y.key).2 ⟨y, hy, rfl⟩
  obtain ⟨x, hx, hxkey⟩ := hab.2 z hz
  exact ⟨x, hx, hxkey.trans hzkey⟩

theorem Request.Settled.alikeKernel {q : Request} (hq : q.Settled k) (ha : k.Alike k') :
    q.Settled k' := by
  cases q with
  | chain c =>
    unfold Request.Settled Kernel.hasChain Kernel.findChain at *
    rw [← ha.chains]
    exact hq
  | set s els =>
    refine ⟨?_, hq.2.congr_contents (ha.contents s.table s.name)⟩
    have hset := hq.1
    unfold Kernel.hasSet at hset ⊢
    rw [ha.findSet]
    exact hset
  | rule r action =>
    unfold Request.Settled Kernel.findRule Kernel.getRules at *
    rw [← ha.rules]
    exact hq

/-- What is in place stays so in an alike ruleset. -/
theorem InPlace.alikeKernel {rs : List Request} (hin : InPlace h rs k) (ha : k.Alike k') :
    InPlace h rs k' where
  tables t ht := by
    rw [← ha.tables]
    exact hin.tables t ht
  managed := hin.managed
  settled q hq := (hin.settled q hq).alikeKernel ha
  rules r hr := by
    rw [← ha.rules] at hr
    exact hin.rules r hr
  sets x hx := by
    rw [← ha.sets] at hx
    exact hin.sets x hx
  chains c hc := by
    rw [← ha.chains] at hc
    unfold Kernel.getRules
    rw [← ha.rules]
    exact hin.chains c hc

end Alike

/-! ### Rulesets with the same chains and sets -/

/-- The filter table has the same rules, and its sets the same contents. -/
structure Kernel.SameChains (k k' : Kernel) : Prop where
  chainRules : ∀ c, k'.chainRules filterTableName c = k.chainRules filterTableName c
  findSet : ∀ n, k'.findSet filterTableName n = k.findSet filterTableName n
  contents : ∀ n x, x ∈ contentsOf (k'.getElements filterTableName n) ↔
    x ∈ contentsOf (k.getElements filterTableName n)

section Same

variable {bo : ByteOrder} {i : Input} {es : List Event} {k k' : Kernel}

theorem Kernel.AgreeOutside.sameChains (ha : k.AgreeOutside legacyNames k') : k.SameChains k' where
  chainRules := ha.chainRules (by decide)
  findSet := ha.findSet (by decide)
  contents n x := by rw [ha.getElements (by decide)]

theorem Kernel.Alike.sameChains (ha : k.Alike k') : k.SameChains k' where
  chainRules := ha.chainRules filterTableName
  findSet := ha.findSet filterTableName
  contents n x := (ha.contents filterTableName n x).symm

/-- What is rendered depends on the rules alone. -/
theorem Rendered.same {d : Direction} (hk : Rendered bo i d k) (hs : k.SameChains k') :
    Rendered bo i d k' := by
  refine ⟨⟨?_, ?_⟩, ?_, ?_, ?_⟩
  · rw [hs.chainRules]
    exact hk.entry
  · rw [hs.chainRules]
    exact hk.common
  · intro p hp
    rw [hs.chainRules]
    exact hk.policy p hp
  · intro p hp index hindex
    rw [hs.chainRules]
    exact hk.ports p hp index hindex
  · intro p hp index hindex
    rw [hs.chainRules]
    exact hk.peers p hp index hindex

/-- What is enforced depends on the rules and the contents of the sets alone. -/
theorem Enforced.same (hk : Enforced bo i k es) (hs : k.SameChains k') : Enforced bo i k' es := by
  refine ⟨hk.exec, hk.answers, fun d => (hk.rendered d).same hs, ?_, ?_, ?_, ?_⟩
  · intro s els fresh he ht
    have hset := hk.sets s els fresh he ht
    have hfound := hset.found
    have hcontents := hset.contents
    rw [ht] at hfound hcontents
    refine ⟨?_, ?_⟩
    · rw [ht, hs.findSet]
      exact hfound
    · rw [ht]
      exact fun y => (hs.contents s.name y).trans (hcontents y)
  · intro d
    rw [hs.chainRules]
    exact hk.common d
  · intro d p hp index hindex
    rw [hs.chainRules]
    exact hk.ports d p hp index hindex
  · intro d p hp index hindex
    rw [hs.chainRules]
    exact hk.peers d p hp index hindex

theorem Hooked.same (hk : Hooked i k) (hs : k.SameChains k') : Hooked i k' := by
  refine ⟨fun d => ?_, fun key => ?_⟩
  · rw [hs.chainRules]
    exact hk.chain d
  · rw [← hk.interfaces key]
    unfold Kernel.lookupSet
    rw [hs.findSet]
    cases k.findSet filterTableName podInterfacesName with
    | none => rfl
    | some x => exact setContains_congr (hs.contents podInterfacesName) _ _

end Same

/-! ### Runs that change nothing -/

/-- What two runs leave and further runs keep. -/
structure Installed (h : Host) (i : Input) (es : List Event) (k : Kernel) : Prop where
  wf : k.WF
  interfaces : i.podInfo.interfaces.length ≠ 0
  inPlace : InPlace h (i.requests h.byteOrder) k
  enforced : Enforced h.byteOrder i k es
  hooked : Hooked i k

/-- A further run for the same input on the same machine, with every request answered.  It may list
pods, policies and addresses in another order; it may fail, and the kernel may refuse its batches.
-/
def Rerun (h : Host) (i : Input) (k k' : Kernel) : Prop :=
  ∃ h' i' s, h.SameMachine h' ∧ (∀ n, h'.fault n = false) ∧ i.Reordered i' ∧ s.kernel = k' ∧
    (applyPolicyRulesForPodAndFamily h' i' (State.new k) = .ok () s ∨
      ∃ e, applyPolicyRulesForPodAndFamily h' i' (State.new k) = .error e s)

/-- Two runs for a pod on one machine, from tables that the daemon has not written to.  The second
may list pods, policies and addresses in another order. -/
structure Repeated (h₁ h₂ : Host) (i i₂ : Input) (k : Kernel) (s₁ s₂ : State) : Prop where
  wf : k.WF
  empty : k.ManagedEmpty
  first : applyPolicyRulesForPodAndFamily h₁ i (State.new k) = .ok () s₁
  second : applyPolicyRulesForPodAndFamily h₂ i₂ (State.new s₁.kernel) = .ok () s₂
  reordered : i.Reordered i₂
  orderless : h₂.Orderless
  byteOrder : h₂.byteOrder = h₁.byteOrder
  keys₁ : KeysDistinct h₁ k s₁
  keys₂ : KeysDistinct h₂ s₁.kernel s₂

section Keep

variable {h : Host} {i : Input} {es : List Event} {k k' : Kernel}

/-- An alike ruleset is as good. -/
theorem Installed.alike (hk : Installed h i es k) (ha : k.Alike k') : Installed h i es k' where
  wf := hk.wf.alike ha
  interfaces := hk.interfaces
  inPlace := hk.inPlace.alikeKernel ha
  enforced := hk.enforced.same ha.sameChains
  hooked := hk.hooked.same ha.sameChains

/-- **A further run keeps what is installed.**  It does the legacy cleanup and finds the rest in
place. -/
theorem Installed.rerun (hk : Installed h i es k) (hi : i.Plain) (hr : Rerun h i k k') :
    Installed h i es k' := by
  obtain ⟨h', i', s, hm, hf, hre, rfl, hs⟩ := hr
  -- the requests of the run are those that are in place
  have hplan : (renderInput h.byteOrder i).plan = some (es.map Event.request, ()) := by
    have hsteady := @steady_renderInput h.byteOrder i
    unfold Steady Follows at hsteady
    obtain ⟨_, hplan, -⟩ := hsteady es () hk.enforced.exec
    exact hplan
  have hsim := hre.sim_renderInput (hre.sameVersions_of_plain hi.deps hi.podInfo) h.byteOrder
  obtain ⟨rs', _, hplan', halike⟩ := hsim.plan hplan
  have hin : InPlace h' (i'.requests h'.byteOrder) k := by
    have hin := hk.inPlace
    unfold Input.requests at hin ⊢
    rw [hplan] at hin
    rw [← hm.byteOrder, hplan']
    exact (hin.alike halike).host hm
  have hintf : i'.podInfo.interfaces.length ≠ 0 := by
    rw [← hre.podInfo]
    exact hk.interfaces
  rw [hm.byteOrder] at hplan'
  have hun := hin.undisturbed hf hk.wf ⟨_, hplan'⟩ hintf
  have ha := hun.unchanged s hs
  -- the ruleset is the one behind the legacy cleanup
  have hlegacy : LegacyInv k (State.new k) := legacyInv_new hk.wf
  have hkeep : s.kernel.WF ∧ ∀ t, isManaged t = true → t ∈ s.kernel.tables := by
    cases hleg : cleanupLegacyTables h' (State.new k) with
    | ok u s₀ =>
      obtain ⟨-, s', -, -, hs', hkernel⟩ := hun.idle s₀ hleg
      have hsame : s = s' := by
        rw [hs'] at hs
        rcases hs with hs | ⟨e, hs⟩ <;> cases hs
        rfl
      rw [hsame, hkernel]
      exact ⟨(cleanupLegacyTables_keeps.of_ok hlegacy hleg).1.wf, fun t ht =>
        (cleanupLegacyTables_tables.of_ok (s := State.new k) (hin.tables t ht) hleg).1⟩
    | error e s₀ =>
      obtain ⟨e', hs'⟩ := apply_of_legacy_error hintf hleg
      have hsame : s = s₀ := by
        rw [hs'] at hs
        rcases hs with hs | ⟨e, hs⟩ <;> cases hs
        rfl
      rw [hsame]
      exact ⟨(cleanupLegacyTables_keeps.of_error hlegacy hleg).wf, fun t ht =>
        cleanupLegacyTables_tables.of_error (s := State.new k) (hin.tables t ht) hleg⟩
  exact ⟨hkeep.1, hk.interfaces, hk.inPlace.agree ha hkeep.2, hk.enforced.same ha.sameChains,
    hk.hooked.same ha.sameChains⟩

/-- **Any number of further runs.** -/
theorem Installed.reruns (hk : Installed h i es k) (hi : i.Plain)
    (hr : Relation.ReflTransGen (Rerun h i) k k') : Installed h i es k' := by
  induction hr with
  | refl => exact hk
  | tail _ hstep ih => exact ih.rerun hi hstep

/-- Two runs for the same input install the policies. -/
theorem TwoRuns.installed {h₁ h₂ : Host} {s₁ s₂ : State} (hr : TwoRuns h₁ h₂ i k s₁ s₂)
    (hi : i.Plain) (hco : i.SetsCoincide h₁.byteOrder) :
    ∃ es, Installed h₂ i es s₂.kernel := by
  obtain ⟨es, hes⟩ := hr.enforced hco hi.names
  have hco₂ : i.SetsCoincide h₂.byteOrder := by
    rw [hr.byteOrder]
    exact hco
  obtain ⟨-, -, -, wf₂, -⟩ := apply_ok hr.wf₁ hr.second
  refine ⟨es, wf₂, interfaces_of_ok hr.second,
    inPlace_of_run hr.wf₁ hr.second (hr.hasSets hco) hco₂.setsAgree, ?_, hr.hooked hco⟩
  rw [hr.byteOrder]
  exact hes

/-- **Two runs install the policies**, in whatever order they list things. -/
theorem Repeated.installed {h₁ h₂ : Host} {i₂ : Input} {s₁ s₂ : State}
    (hr : Repeated h₁ h₂ i i₂ k s₁ s₂) (hi : i.Plain) (hco : i.SetsCoincide h₁.byteOrder) :
    ∃ es, Installed h₂ i es s₂.kernel := by
  have hrelated := related_applyPolicyRulesForPodAndFamily (h := h₂) hr.reordered
    (hr.reordered.sameVersions_of_plain hi.deps hi.podInfo) hr.orderless (State.new s₁.kernel)
    (State.new s₁.kernel) rfl
  rw [hr.second] at hrelated
  cases hrun : applyPolicyRulesForPodAndFamily h₂ i (State.new s₁.kernel) with
  | error e s =>
    rw [hrun] at hrelated
    cases hrelated
  | ok u s =>
    rw [hrun] at hrelated
    have halike : s.Alike Kernel.Alike s₂ := by
      cases hrelated with
      | ok halike => exact halike
    have hkeys : KeysDistinct h₂ s₁.kernel s := by
      have hkeys := hr.keys₂
      unfold KeysDistinct at hkeys ⊢
      rw [halike.requested]
      exact hkeys
    have htwo : TwoRuns h₁ h₂ i k s₁ s :=
      ⟨hr.wf, hr.empty, hr.first, hrun, hr.byteOrder, hr.keys₁, hkeys⟩
    obtain ⟨es, hes⟩ := htwo.installed hi hco
    exact ⟨es, hes.alike halike.kernel⟩

end Keep

/-! ### Verdicts -/

/-- **What the policies make of a packet**, in words of the policies: a packet that is not on an
interface of the pod passes; of the others, those of the common rules are accepted and the policies
decide about the rest. -/
def Input.verdict (i : Input) (pkt : Packet) (d : Direction) (m : BitVec 32) : Verdict :=
  if i.Serves pkt d then
    if i.cfg.Accepts d pkt then .accept else policiesVerdict (i.meaning pkt d) m
  else .done

/-- The verdict of a base chain. -/
theorem Enforced.hook_verdict {bo : ByteOrder} {i : Input} {es : List Event} {k : Kernel}
    {pkt : Packet} {d : Direction} (hk : Enforced bo i k es) (hhook : Hooked i k) (hi : i.Plain)
    (hport : ∀ protocol, pkt.destination ≠ some (protocol, 0)) (m : BitVec 32) :
    (evalChain bo k pkt filterTableName d.hook.name m).2 = i.verdict pkt d m := by
  rw [hhook.eval (hk.rendered d), Input.verdict]
  split
  · exact hk.entry_verdict hi hport m
  · rfl

/-- **The verdict behind the main flush of a first run** is that of the policies, for every packet
and every mark that it comes with. -/
theorem first_flush_verdict {h : Host} {i : Input} {k : Kernel} {s : State} (wf : k.WF)
    (hk : k.ManagedEmpty) (hs : commitRules h i (State.new k) = .ok () s) (hi : i.Plain)
    (hco : i.SetsCoincide h.byteOrder) (d : Direction) (pkt : Packet)
    (hport : ∀ protocol, pkt.destination ≠ some (protocol, 0)) (m : BitVec 32) :
    (evalChain h.byteOrder s.kernel pkt filterTableName d.hook.name m).2 = i.verdict pkt d m := by
  obtain ⟨es, hes⟩ := enforced_of_commit wf hk hs hi.names hco
  exact hes.hook_verdict (hooked_of_commit wf hk hs hco) hi hport m

/-- Two policies with one rule each. -/
theorem plain_unionInput : unionInput.Plain where
  names := by decide +kernel
  indices := by decide +kernel
  ports := by decide +kernel
  except := by
    have hnone : ∀ d, ∀ p ∈ unionInput.policiesIn d, ∀ rule ∈ p.policy.rulesIn d,
        ∀ peer ∈ rule.peers, ∀ block ∈ peer.ipBlock, block.except = [] := by
      decide +kernel
    intro d p hp rule hrule peer hpeer block hblock
    rw [hnone d p hp rule hrule peer hpeer block hblock]
    decide
  prefixes := by decide +kernel
  deps := by
    intro pod info hinfo
    cases hinfo
  podInfo := by
    intro intf hintf ip hip
    obtain rfl := List.mem_singleton.1 hintf
    cases hip

/-- The packet does not go to port zero. -/
theorem destination_tcpPacket (interface source : Str) (protocol : Protocol) :
    (tcpPacket interface source).destination ≠ some (protocol, 0) := by
  have hport : (tcpPacket interface source).destination = some (.tcp, 80) := by
    rfl
  rw [hport]
  simp

set_option maxRecDepth 100000 in
/-- Two policies, one of which lets a packet pass; a packet from elsewhere is dropped. -/
theorem union_first_flush : ∃ s,
    commitRules Host.reliable unionInput (State.new Kernel.empty) = .ok () s ∧
    (evalChain .little s.kernel (tcpPacket (str "net1") [10, 2, 0, 1]) filterTableName
      (str "input") 0).2 = .done ∧
    (evalChain .little s.kernel (tcpPacket (str "net1") [10, 3, 0, 1]) filterTableName
      (str "input") 0).2 = .drop := by
  have hrun : (committed Host.reliable unionInput Kernel.empty).isSome = true := by decide +kernel
  obtain ⟨s, hs⟩ := Option.isSome_iff_exists.1 hrun
  have hverdict := fun source => first_flush_verdict .empty .empty (committed_eq_some hs)
    plain_unionInput (by decide +kernel) .ingress (tcpPacket (str "net1") source)
    (destination_tcpPacket _ _) 0
  refine ⟨s, committed_eq_some hs, (hverdict _).trans ?_, (hverdict _).trans ?_⟩
  · decide +kernel
  · decide +kernel

/-- **The verdict behind two runs and any number of further ones** is that of the policies. -/
theorem runs_verdict {h₁ h₂ : Host} {i i₂ : Input} {k k' : Kernel} {s₁ s₂ : State}
    (hr : Repeated h₁ h₂ i i₂ k s₁ s₂) (hi : i.Plain) (hco : i.SetsCoincide h₁.byteOrder)
    (hlater : Relation.ReflTransGen (Rerun h₂ i) s₂.kernel k') (d : Direction) (pkt : Packet)
    (hport : ∀ protocol, pkt.destination ≠ some (protocol, 0)) (m : BitVec 32) :
    (evalChain h₂.byteOrder k' pkt filterTableName d.hook.name m).2 = i.verdict pkt d m := by
  obtain ⟨es, hes⟩ := hr.installed hi hco
  have hk' := hes.reruns hi hlater
  exact hk'.enforced.hook_verdict hk'.hooked hi hport m

/-- A policy that lets the pods of the cluster in, which are listed in two orders. -/
def everyPodInput (reverse : Bool) : Input :=
  { twoPodsInput reverse with
    policyMap := onePolicy (everyPodPolicy (str "p") isDNS1123Subdomain_p) }

theorem reordered_everyPodInput : (everyPodInput false).Reordered (everyPodInput true) where
  deps := reordered_twoPodsInput.deps
  cfg := rfl
  policies := .refl _
  pod := rfl
  podInfo := rfl

theorem plain_everyPodInput : (everyPodInput false).Plain where
  names := by decide +kernel
  indices := by decide +kernel
  ports := by decide +kernel
  except := by
    have hnone : ∀ d, ∀ p ∈ (everyPodInput false).policiesIn d, ∀ rule ∈ p.policy.rulesIn d,
        ∀ peer ∈ rule.peers, peer.ipBlock = none := by
      decide +kernel
    intro d p hp rule hrule peer hpeer block hblock
    rw [hnone d p hp rule hrule peer hpeer] at hblock
    cases hblock
  prefixes := by decide +kernel
  deps := plain_twoPods false
  podInfo := by
    intro intf hintf ip hip
    obtain rfl := List.mem_singleton.1 hintf
    cases hip

set_option maxRecDepth 100000 in
/-- Three runs for a pod with two peers, in changing orders. -/
theorem exists_everyPodRuns : ∃ s₁ s₂ s₃ : State,
    Repeated Host.reliable Host.reliable (everyPodInput false) (everyPodInput true)
      Kernel.empty s₁ s₂ ∧
      Relation.ReflTransGen (Rerun Host.reliable (everyPodInput false)) s₂.kernel s₃.kernel := by
  have hrun : (outcome Host.reliable (everyPodInput false) Kernel.empty).any (fun s₁ =>
      (outcome Host.reliable (everyPodInput true) s₁.kernel).any fun s₂ =>
        (outcome Host.reliable (everyPodInput true) s₂.kernel).isSome &&
        decide (KeysDistinct Host.reliable Kernel.empty s₁ ∧
          KeysDistinct Host.reliable s₁.kernel s₂)) = true := by
    decide +kernel
  obtain ⟨s₁, hs₁, hrun⟩ := (Option.any_eq_true _ _).1 hrun
  obtain ⟨s₂, hs₂, hrun⟩ := (Option.any_eq_true _ _).1 hrun
  rw [Bool.and_eq_true, Option.isSome_iff_exists] at hrun
  obtain ⟨⟨s₃, hs₃⟩, hkeys⟩ := hrun
  obtain ⟨hkeys₁, hkeys₂⟩ := of_decide_eq_true hkeys
  rw [outcome_eq_some] at hs₁ hs₂ hs₃
  have horderless : Host.reliable.Orderless := fun _ _ _ _ _ _ => rfl
  refine ⟨s₁, s₂, s₃, ⟨.empty, .empty, hs₁, hs₂, reordered_everyPodInput, horderless, rfl, hkeys₁,
    hkeys₂⟩, .single ?_⟩
  exact ⟨Host.reliable, everyPodInput true, s₃, ⟨rfl, rfl, rfl⟩, fun _ => rfl,
    reordered_everyPodInput, rfl, .inl hs₃⟩

set_option maxRecDepth 100000 in
/-- A packet from one of the pods passes behind the third run, one from elsewhere is dropped. -/
theorem everyPod_runs : ∃ s₁ s₂ s₃ : State,
    Repeated Host.reliable Host.reliable (everyPodInput false) (everyPodInput true)
      Kernel.empty s₁ s₂ ∧
    Relation.ReflTransGen (Rerun Host.reliable (everyPodInput false)) s₂.kernel s₃.kernel ∧
    (evalChain .little s₃.kernel (tcpPacket (str "net1") [10, 0, 0, 2]) filterTableName
      (str "input") 0).2 = .done ∧
    (evalChain .little s₃.kernel (tcpPacket (str "net1") [10, 0, 0, 9]) filterTableName
      (str "input") 0).2 = .drop := by
  obtain ⟨s₁, s₂, s₃, hr, hlater⟩ := exists_everyPodRuns
  have hverdict := fun source => runs_verdict hr plain_everyPodInput (by decide +kernel) hlater
    .ingress (tcpPacket (str "net1") source) (destination_tcpPacket _ _) 0
  refine ⟨s₁, s₂, s₃, hr, hlater, (hverdict _).trans ?_, (hverdict _).trans ?_⟩
  · decide +kernel
  · decide +kernel

/-! ### Policies without `except` -/

/-- A peer without `except` lists an address. -/
def MultiNetworkPolicyPeer.Lists (deps : PolicyDeps) (podInfo : PodInfo) (networks : List Str)
    (peer : MultiNetworkPolicyPeer) (a : NetIP.Addr) : Prop :=
  (∃ block, peer.ipBlock = some block ∧ inPrefixes [block.cidr] a = true) ∨
    (peer.ipBlock = none ∧
      ∃ ip ∈ deps.selectedAddresses podInfo networks peer, NetIP.parseAddr ip = some a)

instance (deps : PolicyDeps) (podInfo : PodInfo) (networks : List Str)
    (peer : MultiNetworkPolicyPeer) (a : NetIP.Addr) :
    Decidable (peer.Lists deps podInfo networks a) := inferInstanceAs (Decidable (_ ∨ _))

/-- A rule allows a packet: by its ports and by its peers. -/
def PolicyRule.Allows (i : Input) (pkt : Packet) (d : Direction) (networks : List Str)
    (rule : PolicyRule) : Prop :=
  portsAdmit rule.ports pkt.destination ∧ (rule.peers = [] ∨ ∃ a, pkt.peer d = some a ∧
    ∃ peer ∈ rule.peers, peer.Lists i.deps i.sortedInfo networks a)

instance (i : Input) (pkt : Packet) (d : Direction) (networks : List Str) (rule : PolicyRule) :
    Decidable (rule.Allows i pkt d networks) := inferInstanceAs (Decidable (_ ∧ (_ ∨ _)))

/-- The policies allow a packet: there are none for its direction, or one of those for its interface
has a rule that allows it. -/
def Input.Allows (i : Input) (pkt : Packet) (d : Direction) : Prop :=
  i.policiesIn d = [] ∨ ∃ p ∈ i.policiesIn d, p.Targets i.podInfo pkt d ∧
    ∃ rule ∈ p.policy.rulesIn d, rule.Allows i pkt d p.policyNetworks

instance (i : Input) (pkt : Packet) (d : Direction) : Decidable (i.Allows pkt d) :=
  inferInstanceAs (Decidable (_ ∨ _))

section ExceptFree

variable {i : Input} {pkt : Packet} {d : Direction} {networks : List Str} {rule : PolicyRule}
  {p : InternalPolicy}

/-- Where nobody refuses, the order of the answers does not matter. -/
theorem findSome?_of_ne_false {α : Type} {f : α → Option Bool} {l : List α}
    (h : ∀ x ∈ l, f x ≠ some false) :
    l.findSome? f ≠ some false ∧ (l.findSome? f = some true ↔ ∃ x ∈ l, f x = some true) := by
  have hfalse : l.findSome? f ≠ some false := by
    intro hf
    obtain ⟨x, hx, hfx⟩ := List.exists_of_findSome?_eq_some hf
    exact h x hx hfx
  refine ⟨hfalse, List.exists_of_findSome?_eq_some, ?_⟩
  rintro ⟨x, hx, hfx⟩
  rcases hfind : l.findSome? f with _ | _ | _
  · rw [List.findSome?_eq_none_iff.1 hfind x hx] at hfx
    cases hfx
  · exact absurd hfind hfalse
  · rfl

/-- A peer without exceptions never drops. -/
theorem MultiNetworkPolicyPeer.answer_of_except_nil (deps : PolicyDeps) (podInfo : PodInfo)
    {peer : MultiNetworkPolicyPeer} (hex : ∀ block, peer.ipBlock = some block → block.except = [])
    (networks : List Str) (a : NetIP.Addr) :
    peer.answer deps podInfo networks a ≠ some false ∧
      (peer.answer deps podInfo networks a = some true ↔
        peer.Lists deps podInfo networks a) := by
  unfold answer Lists
  cases hblock : peer.ipBlock with
  | none =>
    simp only [List.any_eq_true, beq_iff_eq, reduceCtorEq, false_and, exists_false,
      true_and, false_or]
    split
    · exact ⟨by simp, iff_of_true rfl ‹_›⟩
    · exact ⟨by simp, iff_of_false (by simp) ‹_›⟩
  | some block =>
    have hnone : inPrefixes block.except a = false := by
      rw [hex block hblock]
      rfl
    simp only [IPBlock.answer, hnone, Bool.false_eq_true, if_false]
    by_cases hin : inPrefixes [block.cidr] a = true
    · -- what a prefix contains is of its family
      have hfamily : (NetIP.parsePrefix block.cidr).any (fun p => p.is4 == a.is4) = true := by
        obtain ⟨text, htext, p, hp, hcontains⟩ := inPrefixes_iff.1 hin
        rw [List.mem_singleton.1 htext] at hp
        rw [hp, Option.any_some]
        cases p <;> cases a <;> first | rfl | cases hcontains
      simp [hin, hfamily]
    · simp [hin]

/-- A rule without `except` never refuses, and lets pass what it allows. -/
theorem PolicyRule.decision_of_not_hasExcept (hex : ¬ hasExcept rule.peers) :
    (PolicyRule.meaning i pkt d networks rule).decision ≠ some false ∧
      ((PolicyRule.meaning i pkt d networks rule).decision = some true ↔
        rule.Allows i pkt d networks) := by
  -- without exceptions no peer says no
  have hpeers : ∀ a, rule.peers.findSome?
      (MultiNetworkPolicyPeer.answer i.deps i.sortedInfo networks a) ≠ some false ∧
      (rule.peers.findSome? (MultiNetworkPolicyPeer.answer i.deps i.sortedInfo networks a) =
        some true ↔ ∃ peer ∈ rule.peers, peer.Lists i.deps i.sortedInfo networks a) := by
    intro a
    have hblock : ∀ peer ∈ rule.peers, ∀ block, peer.ipBlock = some block → block.except = [] := by
      intro peer hpeer block hblock
      by_contra hne
      exact hex ⟨peer, hpeer, block, hblock, hne⟩
    have hanswer := fun peer hpeer =>
      MultiNetworkPolicyPeer.answer_of_except_nil i.deps i.sortedInfo
      (hblock peer hpeer) networks a
    obtain ⟨hne, hiff⟩ := findSome?_of_ne_false fun peer hpeer => (hanswer peer hpeer).1
    exact ⟨hne, hiff.trans (exists_congr fun peer => and_congr_right fun hpeer =>
      (hanswer peer hpeer).2)⟩
  rw [ne_eq, RuleView.decision_eq_some_false, RuleView.decision_eq_some_true]
  unfold PolicyRule.Allows PolicyRule.meaning
  simp only [decide_eq_true_eq]
  by_cases hnil : rule.peers = []
  · simp [hnil]
  · rw [if_neg hnil]
    cases pkt.peer d with
    | none => simp [hnil]
    | some a => simpa [hnil] using ⟨(hpeers a).1, fun _ => (hpeers a).2⟩

/-- A policy without `except` never refuses, and lets pass what one of its rules allows. -/
theorem InternalPolicy.decision_of_not_hasExcept (hex : ¬ p.policy.hasExcept d) :
    (InternalPolicy.meaning i pkt d p).decision ≠ some false ∧
      ((InternalPolicy.meaning i pkt d p).decision = some true ↔ p.Targets i.podInfo pkt d ∧
        ∃ rule ∈ p.policy.rulesIn d, rule.Allows i pkt d p.policyNetworks) := by
  have hrule : ∀ rule ∈ p.policy.rulesIn d,
      (PolicyRule.meaning i pkt d p.policyNetworks rule).decision ≠ some false ∧
        ((PolicyRule.meaning i pkt d p.policyNetworks rule).decision = some true ↔
          rule.Allows i pkt d p.policyNetworks) :=
    fun rule hmem => PolicyRule.decision_of_not_hasExcept fun h => hex ⟨rule, hmem, h⟩
  have hrules := findSome?_of_ne_false (f := RuleView.decision)
    (l := (p.policy.rulesIn d).map (PolicyRule.meaning i pkt d p.policyNetworks)) fun v hv => by
      obtain ⟨rule, hmem, rfl⟩ := List.mem_map.1 hv
      exact (hrule rule hmem).1
  rw [targets_iff]
  unfold InternalPolicy.meaning PolicyView.decision
  simp only
  cases (p.interfaces i.sortedInfo).any (pkt.isOn d) with
  | false => simp
  | true =>
    rw [if_pos rfl]
    refine ⟨hrules.1, hrules.2.trans ?_⟩
    simp only [List.mem_map, exists_exists_and_eq_and, true_and]
    exact exists_congr fun rule => and_congr_right fun hmem => (hrule rule hmem).2

/-- Policies without `except`, for a packet that does not come with both marks. -/
theorem policiesVerdict_of_not_hasExcept (hex : ∀ p ∈ i.policiesIn d, ¬ p.policy.hasExcept d)
    {m : BitVec 32} (hm : ¬ BothMarks m) :
    policiesVerdict (i.meaning pkt d) m ≠ .drop ↔ i.Allows pkt d := by
  have hviews := findSome?_of_ne_false (f := PolicyView.decision) (l := i.meaning pkt d)
    fun v hv => by
      obtain ⟨p, hp, rfl⟩ := List.mem_map.1 hv
      exact (InternalPolicy.decision_of_not_hasExcept (hex p hp)).1
  have hsome : (i.meaning pkt d).findSome? PolicyView.decision = some true ↔
      ∃ p ∈ i.policiesIn d, p.Targets i.podInfo pkt d ∧
        ∃ rule ∈ p.policy.rulesIn d, rule.Allows i pkt d p.policyNetworks := by
    refine hviews.2.trans ?_
    simp only [Input.meaning, List.mem_map, exists_exists_and_eq_and]
    exact exists_congr fun p => and_congr_right fun hp =>
      (InternalPolicy.decision_of_not_hasExcept (hex p hp)).2
  have hnil : i.meaning pkt d = [] ↔ i.policiesIn d = [] := List.map_eq_nil_iff
  unfold policiesVerdict Input.Allows
  rw [← hsome, ← hnil]
  by_cases hempty : i.meaning pkt d = []
  · simp [hempty]
  · rw [if_neg hempty, if_neg fun h => hm h.1]
    by_cases hpass : (i.meaning pkt d).findSome? PolicyView.decision = some true
    · simp [hpass]
    · rw [if_neg hpass]
      exact iff_of_false (by simp) (by simp [hempty, hpass])

end ExceptFree

/-- **Kubernetes semantics**: behind two runs and any number of further ones, a packet on an
interface of the pod is let through exactly if the common rules accept it, no policy is for its
direction, or some policy for its interface has a rule that allows it. -/
theorem allowed_iff {h₁ h₂ : Host} {i i₂ : Input} {k k' : Kernel} {s₁ s₂ : State}
    (hr : Repeated h₁ h₂ i i₂ k s₁ s₂) (hi : i.Plain) (hco : i.SetsCoincide h₁.byteOrder)
    (hlater : Relation.ReflTransGen (Rerun h₂ i) s₂.kernel k') (d : Direction)
    (hex : ∀ p ∈ i.policiesIn d, ¬ p.policy.hasExcept d) (pkt : Packet)
    (hport : ∀ protocol, pkt.destination ≠ some (protocol, 0)) (m : BitVec 32)
    (hm : ¬ BothMarks m) :
    (evalChain h₂.byteOrder k' pkt filterTableName d.hook.name m).2 ≠ .drop ↔
      ¬ i.Serves pkt d ∨ i.cfg.Accepts d pkt ∨ i.Allows pkt d := by
  obtain ⟨es, hes⟩ := hr.installed hi hco
  have hk' := hes.reruns hi hlater
  rw [hk'.enforced.hook_verdict hk'.hooked hi hport m, ← policiesVerdict_of_not_hasExcept hex hm,
    Input.verdict]
  by_cases hserves : i.Serves pkt d
  · by_cases haccepts : i.cfg.Accepts d pkt
    · simp [hserves, haccepts]
    · simp [hserves, haccepts]
  · simp [hserves]

set_option maxRecDepth 100000 in
/-- The rules that list the two pods allow what comes from them. -/
theorem everyPod_allowed : ∃ s₁ s₂ s₃ : State,
    Repeated Host.reliable Host.reliable (everyPodInput false) (everyPodInput true)
      Kernel.empty s₁ s₂ ∧
    Relation.ReflTransGen (Rerun Host.reliable (everyPodInput false)) s₂.kernel s₃.kernel ∧
    (everyPodInput false).Allows (tcpPacket (str "net1") [10, 0, 0, 2]) .ingress ∧
    (evalChain .little s₃.kernel (tcpPacket (str "net1") [10, 0, 0, 2]) filterTableName
      (str "input") 0).2 ≠ .drop := by
  obtain ⟨s₁, s₂, s₃, hr, hlater⟩ := exists_everyPodRuns
  have hex : ∀ p ∈ (everyPodInput false).policiesIn .ingress, ¬ p.policy.hasExcept .ingress := by
    unfold MultiNetworkPolicy.hasExcept hasExcept
    decide +kernel
  have hallows : (everyPodInput false).Allows (tcpPacket (str "net1") [10, 0, 0, 2]) .ingress := by
    decide +kernel
  exact ⟨s₁, s₂, s₃, hr, hlater, hallows, (allowed_iff hr plain_everyPodInput (by decide +kernel)
    hlater .ingress hex _ (destination_tcpPacket _ _) 0 (by decide)).2 (.inr (.inr hallows))⟩

/-! ### Nesting -/

/-- **No packet comes near the bound of the jump stack**: from a base chain calls are nested four
deep, however many policies there are, and any bound from four on gives the same verdict and mark.
-/
theorem nesting_bounded {h₁ h₂ : Host} {i i₂ : Input} {k k' : Kernel} {s₁ s₂ : State}
    (hr : Repeated h₁ h₂ i i₂ k s₁ s₂) (hi : i.Plain) (hco : i.SetsCoincide h₁.byteOrder)
    (hlater : Relation.ReflTransGen (Rerun h₂ i) s₂.kernel k') (d : Direction) (pkt : Packet)
    (bound : Nat) (hbound : 4 ≤ bound) (m : BitVec 32) :
    ChainMachine.evalChain (tableMachine h₂.byteOrder k' pkt filterTableName) bound d.hook.name m =
      evalChain h₂.byteOrder k' pkt filterTableName d.hook.name m := by
  obtain ⟨es, hes⟩ := hr.installed hi hco
  have hk' := hes.reruns hi hlater
  have hshallow : Shallow (tableMachine h₂.byteOrder k' pkt filterTableName) 4 d.hook.name :=
    hk'.hooked.shallow (hk'.enforced.rendered d)
  rw [hshallow.evalChain_eq hbound, evalChain]
  exact (hshallow.evalChain_eq (by decide) m).symm

set_option maxRecDepth 100000 in
/-- A stack for five chains would do. -/
theorem everyPod_nesting : ∃ s₁ s₂ s₃ : State,
    Repeated Host.reliable Host.reliable (everyPodInput false) (everyPodInput true)
      Kernel.empty s₁ s₂ ∧
    Relation.ReflTransGen (Rerun Host.reliable (everyPodInput false)) s₂.kernel s₃.kernel ∧
    ChainMachine.evalChain (tableMachine .little s₃.kernel (tcpPacket (str "net1") [10, 0, 0, 2])
      filterTableName) 5 (str "input") 0 =
      evalChain .little s₃.kernel (tcpPacket (str "net1") [10, 0, 0, 2]) filterTableName
        (str "input") 0 := by
  obtain ⟨s₁, s₂, s₃, hr, hlater⟩ := exists_everyPodRuns
  exact ⟨s₁, s₂, s₃, hr, hlater, nesting_bounded hr plain_everyPodInput (by decide +kernel) hlater
    .ingress _ 5 (by decide) 0⟩

end MultiNetPolicy
