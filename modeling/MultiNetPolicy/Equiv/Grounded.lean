import MultiNetPolicy.Equiv.Shape

/-!
# Rules are asked for after their chains

Every rule of a rendering is in a chain that was asked for before it, and jumps to such chains only.
`Grounds cs p R` says so of a program that starts with the chains `cs`; the chains that are known
grow along an execution.  `grounded_renderInput` is the result for a whole run.
-/

namespace MultiNetPolicy

open ByteString

/-! ### Targets -/

/-- The chain that an expression jumps or goes to. -/
def Expr.target? : Expr → Option Str
  | .verdict .jump target => some target
  | .verdict .goto target => some target
  | _ => none

/-- The chains that a rule can lead to. -/
def Rule.targets (r : Rule) : List Str := r.exprs.filterMap Expr.target?

/-- A chain of a table by its name. -/
def KnownChain (cs : List Chain) (t n : Str) : Prop := ∃ c ∈ cs, c.table = t ∧ c.name = n

/-- The rule is in a known chain and jumps to known chains only. -/
def Rule.Grounded (cs : List Chain) (r : Rule) : Prop :=
  KnownChain cs r.table r.chain ∧ ∀ n ∈ r.targets, KnownChain cs r.table n

theorem KnownChain.mono {cs cs' : List Chain} (hcs : cs ⊆ cs') {t n : Str}
    (h : KnownChain cs t n) : KnownChain cs' t n := by
  obtain ⟨c, hc, hn⟩ := h
  exact ⟨c, hcs hc, hn⟩

/-- Chains that are known stay known. -/
theorem Rule.Grounded.mono {cs cs' : List Chain} (hcs : cs ⊆ cs') {r : Rule} (h : r.Grounded cs) :
    r.Grounded cs' := ⟨h.1.mono hcs, fun n hn => (h.2 n hn).mono hcs⟩

/-- A rule that jumps nowhere. -/
theorem grounded_newRule {cs : List Chain} {chain : Chain} {comment : Str} {exprs : List Expr}
    (hc : chain ∈ cs) (hnone : (newRule chain comment exprs).targets = []) :
    (newRule chain comment exprs).Grounded cs := by
  refine ⟨⟨chain, hc, rfl, rfl⟩, fun n hn => ?_⟩
  rw [hnone] at hn
  cases hn

/-- A rule that jumps to one chain. -/
theorem grounded_newRule_jump {cs : List Chain} {chain target : Chain} {comment : Str}
    {exprs : List Expr} (hc : chain ∈ cs) (ht : target ∈ cs) (htable : target.table = chain.table)
    (hone : (newRule chain comment exprs).targets = [target.name]) :
    (newRule chain comment exprs).Grounded cs := by
  refine ⟨⟨chain, hc, rfl, rfl⟩, fun n hn => ?_⟩
  rw [hone, List.mem_singleton] at hn
  exact ⟨target, ht, htable, hn.symm⟩

namespace Render

variable {α β : Type} {cs : List Chain}

/-! ### Programs -/

/-- The rules of an execution are grounded in the chains `cs` and its own, and the result satisfies
`R` with these. -/
def Grounds (cs : List Chain) (R : List Chain → α → Prop) (p : Render α) : Prop :=
  ∀ es a, Exec p es a →
    (∀ r ∈ rulesOf es, r.Grounded (cs ++ chainsOf es)) ∧ R (cs ++ chainsOf es) a

/-- The second program starts with the chains that the first has asked for. -/
theorem grounds_bind {R : List Chain → α → Prop} {S : List Chain → β → Prop} {p : Render α}
    {f : α → Render β} (hp : Grounds cs R p)
    (hf : ∀ cs' a, cs ⊆ cs' → R cs' a → Grounds cs' S (f a)) : Grounds cs S (p >>= f) := by
  intro es b hex
  obtain ⟨a, es₁, es₂, h₁, h₂, rfl⟩ := exec_bind.1 hex
  obtain ⟨hr₁, hR⟩ := hp es₁ a h₁
  obtain ⟨hr₂, hS⟩ := hf _ a (List.subset_append_left ..) hR es₂ b h₂
  rw [chainsOf_append, ← List.append_assoc]
  refine ⟨fun r hr => ?_, hS⟩
  rw [rulesOf_append] at hr
  rcases List.mem_append.1 hr with hr | hr
  · exact (hr₁ r hr).mono (List.subset_append_left ..)
  · exact hr₂ r hr

theorem grounds_pure {R : List Chain → α → Prop} {a : α} (h : R cs a) : Grounds cs R (pure a) := by
  intro es b hex
  obtain ⟨rfl, rfl⟩ := exec_pure.1 hex
  rw [show chainsOf [] = [] from rfl, List.append_nil]
  exact ⟨fun r hr => (by cases hr), h⟩

theorem grounds_wrapErr {R : List Chain → α → Prop} {context : Str} {p : Render α}
    (h : Grounds cs R p) : Grounds cs R (wrapErr context p) :=
  fun es a hex => h es a (exec_wrapErr.1 hex)

theorem grounds_ofExcept (e : Except Error α) : Grounds cs (fun _ _ => True) (ofExcept e) := by
  intro es a hex
  obtain ⟨-, rfl⟩ := exec_ofExcept.1 hex
  exact ⟨fun r hr => (by cases hr), trivial⟩

/-- A chain is known once it was asked for. -/
theorem grounds_addChain (c : Chain) :
    Grounds cs (fun cs' x => x ∈ cs' ∧ x = c.short) (addChain c) := by
  intro es x hex
  obtain ⟨rfl, rfl⟩ := exec_addChain.1 hex
  exact ⟨fun r hr => (by cases hr), List.mem_append_right _ (List.mem_singleton_self _), rfl⟩

theorem grounds_updateSet (s : NftSet) (els : List SetElement) :
    Grounds cs (fun _ _ => True) (updateSet s els) := by
  intro es x hex
  obtain ⟨id, fresh, -, rfl, rfl⟩ := exec_updateSet.1 hex
  exact ⟨fun r hr => (by cases hr), trivial⟩

theorem grounds_updateRule {r : Rule} (hr : r.Grounded cs) (action : RuleAction) (force : Bool) :
    Grounds cs (fun _ _ => True) (updateRule r action force) := by
  intro es x hex
  obtain rfl := exec_updateRule.1 hex
  refine ⟨fun y hy => ?_, trivial⟩
  rw [List.mem_singleton.1 (show y ∈ [r] from hy)]
  exact hr.mono (List.subset_append_left ..)

/-- A call whose result is thrown away. -/
theorem grounds_updateRule_unit {r : Rule} (hr : r.Grounded cs) (action : RuleAction)
    (force : Bool) : Grounds cs (fun _ _ => True) (do let _ ← updateRule r action force) :=
  grounds_bind (grounds_updateRule hr action force) fun _ _ _ _ => grounds_pure trivial

theorem grounds_when {c : Prop} [Decidable c] {p : Render Unit}
    (h : c → Grounds cs (fun _ _ => True) p) : Grounds cs (fun _ _ => True) (when c p) := by
  unfold when
  split
  · rename_i hc
    exact h hc
  · exact grounds_pure trivial

/-- Chains become known along a loop. -/
theorem grounds_forEach {f : Nat → α → Render Unit} : ∀ (l : List α) (i : Nat) (cs : List Chain),
    (∀ cs', cs ⊆ cs' → ∀ j x, Grounds cs' (fun _ _ => True) (f j x)) →
      Grounds cs (fun _ _ => True) (forEach f i l)
  | [], _, _, _ => grounds_pure trivial
  | x :: xs, i, cs, h =>
    grounds_bind (h cs (List.Subset.refl cs) i x) fun cs' _ hcs _ =>
      grounds_forEach xs (i + 1) cs' fun cs'' hcs' => h cs'' (List.Subset.trans hcs hcs')

theorem grounds_orLoop {f : α → Render Bool} : ∀ (l : List α) (cs : List Chain),
    (∀ cs', cs ⊆ cs' → ∀ x, Grounds cs' (fun _ _ => True) (f x)) →
      Grounds cs (fun _ _ => True) (orLoop f l)
  | [], _, _ => grounds_pure trivial
  | x :: xs, cs, h =>
    grounds_bind (h cs (List.Subset.refl cs) x) fun cs' _ hcs _ =>
      grounds_bind
        (grounds_orLoop xs cs' fun cs'' hcs' => h cs'' (List.Subset.trans hcs hcs')) fun _ _ _ _ =>
        grounds_pure trivial

/-! ### Ports and peers chains -/

section Policy

variable {bo : ByteOrder} {deps : PolicyDeps} {chainName policyName : Str} {chain : Chain}
  (hc : chain ∈ cs)
include hc

omit hc in
theorem grounds_applyProtoPorts {portsName : Str} {portChain : Chain} (hp : portChain ∈ cs)
    (protocol : Protocol) (els : List SetElement) :
    Grounds cs (fun _ _ => True)
      (applyProtoPorts bo chain portsName portChain policyName protocol els) := by
  refine grounds_when fun _ => grounds_bind (grounds_updateSet _ _) fun cs' set hcs _ => ?_
  exact grounds_wrapErr (grounds_updateRule_unit (grounded_newRule (hcs hp) rfl) _ _)

/-- The rules for the ports are in a chain of their own. -/
theorem grounds_applyPolicyPortsRules {ports : List MultiNetworkPolicyPort} {index : Nat} :
    Grounds cs (fun _ _ => True)
      (applyPolicyPortsRules bo chainName chain policyName ports index) := by
  refine grounds_bind (grounds_wrapErr (grounds_addChain _)) fun cs₁ portChain h₁ ⟨hp, hport⟩ => ?_
  have hjump : (policyJumpRule chainName chain policyName portChain).Grounded cs₁ :=
    grounded_newRule_jump (h₁ hc) hp (by rw [hport]; rfl) rfl
  refine grounds_bind (grounds_updateRule hjump _ _) fun cs₂ _ h₂ _ => ?_
  refine grounds_bind (grounds_ofExcept _) fun cs₃ els h₃ _ => ?_
  have hp₃ : portChain ∈ cs₃ := h₃ (h₂ hp)
  refine grounds_bind (grounds_applyProtoPorts hp₃ _ _) fun cs₄ _ h₄ _ => ?_
  refine grounds_bind (grounds_applyProtoPorts (h₄ hp₃) _ _) fun cs₅ _ h₅ _ => ?_
  refine grounds_bind (grounds_applyProtoPorts (h₅ (h₄ hp₃)) _ _)
    fun cs₆ _ h₆ _ => grounds_when fun _ => ?_
  exact grounds_updateRule_unit (grounded_newRule (h₆ (h₅ (h₄ hp₃))) rfl) _ _

theorem grounds_applyPrefixes {cidr : Str} {index : Nat} {els except : List SetElement}
    {isV6 : Bool} : Grounds cs (fun _ _ => True)
      (applyPrefixes bo chainName chain policyName cidr index els except isV6) := by
  refine grounds_when fun _ => grounds_bind (grounds_when fun _ => ?_) fun cs₁ _ h₁ _ => ?_
  · refine grounds_bind (grounds_wrapErr (grounds_updateSet _ _)) fun cs₁ set h₁ _ => ?_
    exact grounds_updateRule_unit (grounded_newRule (h₁ hc) rfl) _ _
  · refine grounds_bind (grounds_wrapErr (grounds_updateSet _ _)) fun cs₂ set h₂ _ => ?_
    exact grounds_updateRule_unit (grounded_newRule (h₂ (h₁ hc)) rfl) _ _

theorem grounds_addIPRule {addrs : List Str} {peer : MultiNetworkPolicyPeer} {index : Nat} :
    Grounds cs (fun _ _ => True)
      (addIPRule bo chainName addrs chain policyName peer index) := by
  cases addrs with
  | nil => exact grounds_pure trivial
  | cons addr rest =>
    refine grounds_bind (grounds_updateSet _ _) fun cs₁ set h₁ _ => ?_
    exact grounds_updateRule_unit (grounded_newRule (h₁ hc) rfl) _ _

theorem grounds_applyPolicyPeer {podInfo : PodInfo} {networks : List Str} {index : Nat}
    {peer : MultiNetworkPolicyPeer} : Grounds cs (fun _ _ => True)
      (applyPolicyPeer bo deps chainName chain policyName podInfo networks index peer) := by
  unfold applyPolicyPeer
  split
  · refine grounds_wrapErr ?_
    refine grounds_bind (grounds_wrapErr (grounds_ofExcept _)) fun cs₁ except h₁ _ => ?_
    refine grounds_bind (grounds_wrapErr (grounds_ofExcept _)) fun cs₂ prefixes h₂ _ => ?_
    refine grounds_bind (grounds_wrapErr (grounds_applyPrefixes (h₂ (h₁ hc)))) fun cs₃ _ h₃ _ => ?_
    exact grounds_wrapErr (grounds_applyPrefixes (h₃ (h₂ (h₁ hc))))
  · split
    · refine grounds_wrapErr ?_
      refine grounds_bind (grounds_wrapErr (grounds_ofExcept _)) fun cs₁ _ h₁ _ => ?_
      refine grounds_bind (grounds_wrapErr (grounds_ofExcept _)) fun cs₂ _ h₂ _ => ?_
      refine grounds_bind (grounds_wrapErr (grounds_ofExcept _)) fun cs₃ _ h₃ _ => ?_
      refine grounds_wrapErr (grounds_bind (grounds_ofExcept _) fun cs₄ addrs h₄ _ => ?_)
      have hc₄ : chain ∈ cs₄ := h₄ (h₃ (h₂ (h₁ hc)))
      refine grounds_bind (grounds_wrapErr (grounds_addIPRule hc₄)) fun cs₅ _ h₅ _ => ?_
      exact grounds_wrapErr (grounds_addIPRule (h₅ hc₄))
    · exact fun _ _ hex => absurd hex exec_fail

/-- The rules for the peers are in a chain of their own. -/
theorem grounds_applyPolicyPeersRules {peers : List MultiNetworkPolicyPeer} {podInfo : PodInfo}
    {networks : List Str} {index : Nat} : Grounds cs (fun _ _ => True)
      (applyPolicyPeersRules bo deps chainName chain policyName peers podInfo networks index) := by
  refine grounds_bind (grounds_wrapErr (grounds_addChain _))
    fun cs₁ peersChain h₁ ⟨hp, hpeers⟩ => ?_
  have hjump : (policyJumpRule chainName chain policyName peersChain).Grounded cs₁ :=
    grounded_newRule_jump (h₁ hc) hp (by rw [hpeers]; rfl) rfl
  refine grounds_bind (grounds_updateRule hjump _ _) fun cs₂ _ h₂ _ => ?_
  refine grounds_bind (grounds_forEach _ _ _ fun cs' h' j x =>
    grounds_applyPolicyPeer (h' (h₂ hp))) fun cs₃ _ h₃ _ => grounds_when fun _ => ?_
  exact grounds_updateRule_unit (grounded_newRule (h₃ (h₂ hp)) rfl) _ _

/-! ### Policy and entry chains -/

/-- The block of a rule jumps to the two chains. -/
theorem grounds_applyPolicyRule {podInfo : PodInfo} {networks : List Str}
    {resetName direction : Str} {index : Nat} {rule : PolicyRule} : Grounds cs (fun _ _ => True)
      (applyPolicyRule bo deps chainName chain podInfo networks policyName resetName direction index
        rule) := by
  refine grounds_bind (grounds_wrapErr (grounds_updateRule_unit (grounded_newRule hc rfl) _ _))
    fun cs₁ _ h₁ _ => ?_
  refine grounds_bind (grounds_wrapErr (grounds_applyPolicyPortsRules (h₁ hc)))
    fun cs₂ _ h₂ _ => ?_
  refine grounds_bind (grounds_wrapErr (grounds_applyPolicyPeersRules (h₂ (h₁ hc))))
    fun cs₃ _ h₃ _ => ?_
  exact grounds_wrapErr (grounds_updateRule_unit (grounded_newRule (h₃ (h₂ (h₁ hc))) rfl) _ _)

/-- The interface rules of a policy jump to its chain. -/
theorem grounds_applyPolicy (ht : chain.table = filterTableName) {podInfo : PodInfo}
    {direction : Str} {p : InternalPolicy} :
    Grounds cs (fun _ _ => True) (applyPolicy bo deps chain podInfo direction p) := by
  refine grounds_bind (R := fun _ _ => True) (grounds_wrapErr ?_) fun cs₁ _ h₁ _ =>
    grounds_bind (grounds_wrapErr (grounds_updateRule_unit (grounded_newRule (h₁ hc) rfl) _ _))
      fun _ _ _ _ => grounds_pure trivial
  refine grounds_bind (grounds_wrapErr (grounds_addChain _)) fun cs₁ policyChain h₁ ⟨hp, hpol⟩ => ?_
  have hjump : ∀ cs', cs₁ ⊆ cs' → ∀ x,
      (podInterfaceRule chain policyChain p.policy x).Grounded cs' := fun cs' h' x =>
    grounded_newRule_jump (h' (h₁ hc)) (h' hp) (by rw [hpol, ht]; rfl) rfl
  refine grounds_bind (grounds_wrapErr (grounds_orLoop _ _ fun cs' h' x =>
    grounds_updateRule (hjump cs' h' x) _ _)) fun cs₂ _ h₂ _ => ?_
  refine grounds_bind (R := fun _ _ => True) ?_ fun _ _ _ _ => grounds_pure trivial
  unfold applyPolicyRules
  split
  · exact grounds_forEach _ _ _ fun cs' h' j x => grounds_applyPolicyRule (h' (h₂ hp))
  · exact grounds_forEach _ _ _ fun cs' h' j x => grounds_applyPolicyRule (h' (h₂ hp))

theorem grounds_applyPolicies (ht : chain.table = filterTableName) {podInfo : PodInfo}
    {direction : Str} {policies : List InternalPolicy} : Grounds cs (fun _ _ => True)
      (applyPolicies bo deps chain podInfo direction policies) := by
  refine grounds_when fun _ => grounds_bind (grounds_orLoop _ _ fun cs' h' p =>
    grounds_applyPolicy (h' hc) ht) fun cs₁ _ h₁ _ => ?_
  exact grounds_wrapErr (grounds_updateRule_unit (grounded_newRule (h₁ hc) rfl) _ _)

/-! ### Common chains -/

theorem grounds_allowICMP (icmpv6 : Bool) :
    Grounds cs (fun _ _ => True) (allowICMP chain icmpv6) :=
  grounds_updateRule_unit (grounded_newRule hc rfl) _ _

theorem grounds_allowNeighborDiscovery :
    Grounds cs (fun _ _ => True) (allowNeighborDiscovery chain) := by
  refine grounds_bind (grounds_wrapErr (grounds_updateSet _ _)) fun cs₁ set h₁ _ => ?_
  exact grounds_bind (grounds_wrapErr (grounds_updateRule (grounded_newRule (h₁ hc) rfl) _ _))
    fun _ _ _ _ => grounds_pure trivial

theorem grounds_applyCommonPrefixFamily {set : NftSet} {els : List SetElement} {proto : UInt8}
    {offset len : Nat} : Grounds cs (fun _ _ => True)
      (applyCommonPrefixFamily chain set els proto offset len) := by
  refine grounds_when fun _ =>
    grounds_bind (grounds_wrapErr (grounds_updateSet _ _)) fun cs₁ set h₁ _ => ?_
  exact grounds_updateRule_unit (grounded_newRule (h₁ hc) rfl) _ _

theorem grounds_applyCommonPrefixRules {prefixes : List Str} {name : Str} :
    Grounds cs (fun _ _ => True) (applyCommonPrefixRules chain prefixes name) := by
  refine grounds_bind (grounds_wrapErr (grounds_ofExcept _)) fun cs₁ els h₁ _ => ?_
  refine grounds_bind (grounds_applyCommonPrefixFamily (h₁ hc)) fun cs₂ _ h₂ _ => ?_
  exact grounds_applyCommonPrefixFamily (h₂ (h₁ hc))

theorem grounds_allowConntracked : Grounds cs (fun _ _ => True) (allowConntracked bo chain) :=
  grounds_updateRule_unit (grounded_newRule hc rfl) _ _

end Policy

/-! ### A whole run -/

/-- The chains of `NftState.base` are asked for. -/
theorem base_mem_baseChains (bo : ByteOrder) :
    ((NftState.base bo).input ∈ NftState.baseChains ∧
      (NftState.base bo).output ∈ NftState.baseChains ∧
      (NftState.base bo).prerouting ∈ NftState.baseChains) ∧
    ((NftState.base bo).ingressChain ∈ NftState.baseChains ∧
      (NftState.base bo).egressChain ∈ NftState.baseChains) ∧
    (NftState.base bo).commonIngressChain ∈ NftState.baseChains ∧
      (NftState.base bo).commonEgressChain ∈ NftState.baseChains := by
  simp [NftState.base, NftState.baseChains]

/-- The base chains are known from the start. -/
theorem grounds_bootstrapNetfilterRules {bo : ByteOrder} {interfaces : List InterfaceInfo} :
    Grounds cs (fun cs' n => n = NftState.base bo ∧ NftState.baseChains ⊆ cs')
      (bootstrapNetfilterRules bo interfaces) := by
  intro es n hex
  obtain ⟨rfl, filterSet, natSet, fresh₁, fresh₂, b₁, b₂, b₃, b₄, b₅, -, -, rfl⟩ :=
    exec_bootstrapNetfilterRules hex
  have hmem : NftState.baseChains ⊆ cs ++ chainsOf (NftState.baseChains.map Event.chain) :=
    List.subset_append_right ..
  rw [chainsOf_append, show chainsOf (_ :: _) = [] from rfl, List.append_nil]
  refine ⟨fun r hr => ?_, rfl, hmem⟩
  obtain ⟨⟨hin, hout, hpre⟩, ⟨hing, heg⟩, hci, hce⟩ := base_mem_baseChains bo
  rw [rulesOf_append, show rulesOf (NftState.baseChains.map Event.chain) = [] from rfl,
    List.nil_append] at hr
  simp only [rulesOf, List.filterMap_cons, Event.rule?, List.filterMap_nil, List.mem_cons,
    List.not_mem_nil, or_false] at hr
  rcases hr with rfl | rfl | rfl | rfl | rfl
  · exact grounded_newRule_jump (hmem hin) (hmem hing) rfl rfl
  · exact grounded_newRule_jump (hmem hout) (hmem heg) rfl rfl
  · exact grounded_newRule (hmem hpre) rfl
  · exact grounded_newRule_jump (hmem hing) (hmem hci) rfl rfl
  · exact grounded_newRule_jump (hmem heg) (hmem hce) rfl rfl

theorem grounds_applyCommonChainRules {n : NftState} (hi : n.commonIngressChain ∈ cs)
    (he : n.commonEgressChain ∈ cs) {cfg : CommonRuleConfig} :
    Grounds cs (fun _ _ => True) (applyCommonChainRules n cfg) := by
  have hicmp : Grounds cs (fun _ _ => True) (applyCommonICMPv6 n cfg.acceptICMPv6) := by
    unfold applyCommonICMPv6
    split
    · exact grounds_bind (grounds_wrapErr (grounds_allowICMP hi _)) fun cs₁ _ h₁ _ =>
        grounds_wrapErr (grounds_allowICMP (h₁ he) _)
    · exact grounds_bind (grounds_wrapErr (grounds_allowNeighborDiscovery hi)) fun cs₁ _ h₁ _ =>
        grounds_wrapErr (grounds_allowNeighborDiscovery (h₁ he))
  refine grounds_bind hicmp fun cs₁ _ h₁ _ => ?_
  refine grounds_bind (grounds_when fun _ => grounds_bind (grounds_wrapErr
    (grounds_allowICMP (h₁ hi) _)) fun cs₂ _ h₂ _ => grounds_wrapErr
      (grounds_allowICMP (h₂ (h₁ he)) _)) fun cs₂ _ h₂ _ => ?_
  refine grounds_bind (grounds_when fun _ => grounds_wrapErr
    (grounds_applyCommonPrefixRules (h₂ (h₁ hi)))) fun cs₃ _ h₃ _ => ?_
  refine grounds_bind (grounds_when fun _ => grounds_wrapErr
    (grounds_applyCommonPrefixRules (h₃ (h₂ (h₁ he))))) fun cs₄ _ h₄ _ => ?_
  refine grounds_bind (grounds_wrapErr (grounds_allowConntracked (h₄ (h₃ (h₂ (h₁ hi))))))
    fun cs₅ _ h₅ _ => ?_
  exact grounds_wrapErr (grounds_allowConntracked (h₅ (h₄ (h₃ (h₂ (h₁ he))))))

/-- **The rules of a run are in chains that it asks for, and so are the chains they jump to.** -/
theorem grounded_renderInput {bo : ByteOrder} {i : Input} {es : List Event} {u : Unit}
    (hex : Exec (renderInput bo i) es u) : ∀ r ∈ rulesOf es, r.Grounded (chainsOf es) := by
  have hrun : Grounds [] (fun _ _ => True) (renderInput bo i) := by
    refine grounds_bind (grounds_wrapErr grounds_bootstrapNetfilterRules)
      fun cs₁ n _ ⟨hn, hbase⟩ => ?_
    obtain ⟨-, ⟨hing, heg⟩, hci, hce⟩ := base_mem_baseChains bo
    subst hn
    refine grounds_bind (grounds_wrapErr (grounds_applyCommonChainRules (hbase hci) (hbase hce)))
      fun cs₂ _ h₂ _ => ?_
    refine grounds_bind (grounds_applyPolicies (h₂ (hbase hing)) rfl) fun cs₃ _ h₃ _ => ?_
    exact grounds_applyPolicies (h₃ (h₂ (hbase heg))) rfl
  have hgrounded := (hrun es u hex).1
  rw [List.nil_append] at hgrounded
  exact hgrounded

end Render

end MultiNetPolicy
