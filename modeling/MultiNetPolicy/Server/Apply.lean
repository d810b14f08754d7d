import MultiNetPolicy.Server.Legacy
import MultiNetPolicy.Server.Peers

/-!
# Applying policies to a pod

The rules of the entry chains and of the policy chains (`applyPodRules`), and
`ApplyPolicyRulesForPodAndFamily`, which selects the policies of a pod, renders them, commits the
batch and cleans up.

An entry chain jumps to the chain of each policy for each of its interfaces and returns after a
policy whose chain left both marks set; a policy chain has one block per rule: reset the marks, jump
to the ports chain, jump to the peers chain, return when both marks are set.
-/

namespace MultiNetPolicy

open ByteString

/-- The packet has both marks. -/
def markCheck (bo : ByteOrder) : List Expr :=
  [.metaExpr .mark false 1,
    .bitwise 1 1 4 (bo.putUint32 matchRuleMark) (bo.putUint32 zeroRuleMark),
    .cmp .eq 1 (bo.putUint32 matchRuleMark), .counter, .verdict .ret []]

/-! ### Names of policy chains -/

/-- The full name of a policy chain, before `addChain` shortens it. -/
def policyChainFullName (entry : Str) (policy : MultiNetworkPolicy) : Str :=
  entry ++ str "-" ++
    truncateNftName (policyRuleNamespacedName policy) (nftNameMaxLen - entry.length - 1)

/-- The chain of a policy as `addChain` returns it. -/
def policyChainOf (entry : Str) (policy : MultiNetworkPolicy) : Chain :=
  ⟨filterTableName, shortName (policyChainFullName entry policy), none⟩

namespace Render

/-! ### Rules of the entry chain -/

/-- The rule of `applyPodInterfaceRules`. -/
def podInterfaceRule (chain policyChain : Chain) (policy : MultiNetworkPolicy)
    (podInterface : InterfaceInfo) : Rule :=
  newRule chain
    (str "policy:" ++ policyNamespacedName policy ++ str ", name:" ++ chain.name ++
      str ", net-attach-def:" ++ podInterface.netattachName ++ str ", interface:" ++
      podInterface.interfaceName ++ str ", cni:" ++ podInterface.interfaceType ++ str ", jump:" ++
      policyChain.name)
    [.metaExpr (getMetaKeyInterface chain.name) false 1,
      .cmp .eq 1 (ifname podInterface.interfaceName), .counter, .verdict .jump policyChain.name]

/-- `applyPodInterfaceRules`. -/
def applyPodInterfaceRules (chain policyChain : Chain) (policy : MultiNetworkPolicy)
    (podInterface : InterfaceInfo) : Render Bool :=
  updateRule (podInterfaceRule chain policyChain policy podInterface) .addRule false

/-- The rule of `applyGeneralMarkCheck`. -/
def generalMarkCheckRule (bo : ByteOrder) (chain : Chain) (policy : MultiNetworkPolicy) : Rule :=
  newRule chain (str "policy:" ++ policyNamespacedName policy ++ str ", check mark 0x30000")
    (markCheck bo)

/-- `applyGeneralMarkCheck`. -/
def applyGeneralMarkCheck (bo : ByteOrder) (chain : Chain) (policy : MultiNetworkPolicy) :
    Render Unit := do
  let _ ← updateRule (generalMarkCheckRule bo chain policy) .addRule false

/-- The rule of `applyDropRemaining`. -/
def dropRemainingRule (chain : Chain) : Rule :=
  newRule chain (str "drop-remaining") [.counter, .verdict .drop []]

/-- `applyDropRemaining`. -/
def applyDropRemaining (chain : Chain) (force : Bool) : Render Unit := do
  let _ ← updateRule (dropRemainingRule chain) .addRule force

/-! ### Rules of a policy chain -/

/-- The rule of `applyMarkReset`. -/
def markResetRule (bo : ByteOrder) (policyChainName : Str) (policyChain : Chain)
    (policyName : Str) (index : Nat) : Rule :=
  newRule policyChain
    (str "policy:" ++ policyName ++ str ", name:" ++ policyChainName ++ str " ingress:" ++
      decimal index ++ str ": reset")
    [.metaExpr .mark false 1,
      .bitwise 1 1 4 (bo.putUint32 (~~~matchRuleMark)) (bo.putUint32 zeroRuleMark),
      .metaExpr .mark true 1, .counter]

/-- `applyMarkReset`. -/
def applyMarkReset (bo : ByteOrder) (policyChainName : Str) (policyChain : Chain)
    (policyName : Str) (index : Nat) : Render Unit := do
  let _ ← updateRule (markResetRule bo policyChainName policyChain policyName index) .addRule false

/-- The rule of `applyMarkCheck`. -/
def markCheckRule (bo : ByteOrder) (policyChainName : Str) (policyChain : Chain)
    (policyName : Str) (index : Nat) : Rule :=
  newRule policyChain
    (str "policy:" ++ policyName ++ str ", name:" ++ policyChainName ++ str " ingress:" ++
      decimal index ++ str " return")
    (markCheck bo)

/-- `applyMarkCheck`. -/
def applyMarkCheck (bo : ByteOrder) (policyChainName : Str) (policyChain : Chain)
    (policyName : Str) (index : Nat) : Render Unit := do
  let _ ← updateRule (markCheckRule bo policyChainName policyChain policyName index) .addRule false

/-- The block of one rule of a policy.  `direction` only appears in error texts; the text of a
failing mark check names egress in both directions. -/
def applyPolicyRule (bo : ByteOrder) (deps : PolicyDeps) (policyChainName : Str)
    (policyChain : Chain) (podInfo : PodInfo) (policyNetworks : List Str)
    (policyName resetName direction : Str) (index : Nat) (rule : PolicyRule) : Render Unit := do
  let ofPolicy := str " for policy " ++ quote policyName
  wrapErr (str "failed to apply " ++ direction ++ str " mark reset" ++ ofPolicy)
    (applyMarkReset bo policyChainName policyChain resetName index)
  wrapErr (str "failed to apply " ++ direction ++ str " ports" ++ ofPolicy)
    (applyPolicyPortsRules bo policyChainName policyChain policyName rule.ports index)
  wrapErr (str "failed to apply " ++ direction ++ str " address rules" ++ ofPolicy)
    (applyPolicyPeersRules bo deps policyChainName policyChain policyName rule.peers podInfo
      policyNetworks index)
  wrapErr (str "failed to apply egress mark check" ++ ofPolicy)
    (applyMarkCheck bo policyChainName policyChain policyName index)

/-- The loops of `applyPodRules` over the rules of a direction.  The mark resets of egress rules
carry the policy's name without its namespace. -/
def applyPolicyRules (bo : ByteOrder) (deps : PolicyDeps) (policyChainName : Str)
    (policyChain : Chain) (podInfo : PodInfo) (policyNetworks : List Str)
    (policy : MultiNetworkPolicy) : Render Unit :=
  if isIngressChain policyChainName then
    forEach (applyPolicyRule bo deps policyChainName policyChain podInfo policyNetworks
      (policyNamespacedName policy) (policyNamespacedName policy) (str "ingress")) 0
      (policy.ingress.getD [])
  else
    forEach (applyPolicyRule bo deps policyChainName policyChain podInfo policyNetworks
      (policyNamespacedName policy) policy.name (str "egress")) 0 (policy.egress.getD [])

/-- `applyPodRules`; the result says whether an interface rule is new. -/
def applyPodRules (bo : ByteOrder) (deps : PolicyDeps) (chain : Chain) (podInfo : PodInfo)
    (policy : MultiNetworkPolicy) (policyNetworks : List Str) : Render Bool := do
  let policyChainName := policyChainFullName chain.name policy
  let policyName := policyNamespacedName policy
  let policyChain ← wrapErr (str "failed to create policy chain")
    (addChain ⟨filterTableName, policyChainName, none⟩)
  let newRules ← wrapErr
    (str "failed to apply pod interface rules for policy " ++ quote policyName)
    (orLoop (applyPodInterfaceRules chain policyChain policy)
      (podInfo.interfaces.filter fun i => i.checkPolicyNetwork policyNetworks))
  applyPolicyRules bo deps policyChainName policyChain podInfo policyNetworks policy
  return newRules

end Render

/-! ### Selecting policies -/

/-- `controllers.PolicyMap`, in the order `range` visits it. -/
structure PolicyMap where
  policies : List MultiNetworkPolicy
  keys_nodup : (policies.map fun p => (p.namespace, p.name)).Nodup

/-- `internalPolicy`. -/
structure InternalPolicy where
  policy : MultiNetworkPolicy
  policyNetworks : List Str

/-- `CompareInternalPolicy(a, b) <= 0`. -/
def compareInternalPolicy (a b : InternalPolicy) : Prop :=
  le (policyNamespacedName a.policy) (policyNamespacedName b.policy) = true

instance : DecidableRel compareInternalPolicy := fun a b =>
  inferInstanceAs (Decidable
    (le (policyNamespacedName a.policy) (policyNamespacedName b.policy) = true))

/-- `getEnabledPolicyTypes`: ingress and egress. -/
def getEnabledPolicyTypes (policy : MultiNetworkPolicy) : Bool × Bool :=
  if policy.policyTypes.length > 0 then
    (policy.policyTypes.any fun v => equalFold v (str "Ingress"),
      policy.policyTypes.any fun v =>
        !equalFold v (str "Ingress") && equalFold v (str "Egress"))
  else (policy.ingress.isSome, policy.egress.isSome)

/-- The networks of the annotation `policy-for`, sorted; a name without a namespace is one of the
policy's own namespace. -/
def policyNetworksOf (policy : MultiNetworkPolicy) (policyNetworksAnnot : Str) : List Str :=
  ((split 0x2c (removeAll 0x20 policyNetworksAnnot)).map fun networkName =>
    if 0x2f ∈ networkName then networkName
    else policy.namespace ++ str "/" ++ networkName).insertionSort fun a b => le a b = true

/-- `policy.Spec.PodSelector` selects the pod; a bad selector selects nothing. -/
def podSelected (pod : Pod) (policy : MultiNetworkPolicy) : Bool :=
  if policy.podSelector.hasSize then
    match policy.podSelector.asSelector with
    | .error _ => false
    | .ok selector => selector.isMatch pod.labels
  else true

/-- One policy of the loop of `ApplyPolicyRulesForPodAndFamily`: the policy with its networks when
it applies to the pod. -/
def applicable (pod : Pod) (podInfo : PodInfo) (policy : MultiNetworkPolicy) :
    Option InternalPolicy :=
  if policy.namespace = pod.namespace ∧ podSelected pod policy then
    match policy.annotations.lookup policyNetworkAnnotation with
    | none => none
    | some policyNetworksAnnot =>
      let policyNetworks := policyNetworksOf policy policyNetworksAnnot
      if podInfo.checkPolicyNetwork policyNetworks then some ⟨policy, policyNetworks⟩ else none
  else none

/-- What `ApplyPolicyRulesForPodAndFamily` is called with.  A missing `podInfo` is one without
interfaces: both are the same error. -/
structure Input where
  deps : PolicyDeps
  cfg : CommonRuleConfig
  policyMap : PolicyMap
  pod : Pod
  podInfo : PodInfo

namespace Input

/-- `bootstrapNetfilterRules` sorts the interfaces by name. -/
def sortedInfo (i : Input) : PodInfo :=
  ⟨i.podInfo.interfaces.insertionSort fun a b => le a.interfaceName b.interfaceName = true⟩

def applicablePolicies (i : Input) : List InternalPolicy :=
  i.policyMap.policies.filterMap (applicable i.pod i.sortedInfo)

/-- `ingressPolicies`, sorted. -/
def ingressPolicies (i : Input) : List InternalPolicy :=
  (i.applicablePolicies.filter fun p => (getEnabledPolicyTypes p.policy).1).insertionSort
    compareInternalPolicy

/-- `egressPolicies`, sorted. -/
def egressPolicies (i : Input) : List InternalPolicy :=
  (i.applicablePolicies.filter fun p => (getEnabledPolicyTypes p.policy).2).insertionSort
    compareInternalPolicy

end Input

/-! ### The run -/

namespace Render

/-- One policy of a direction: its rules, then the mark check. -/
def applyPolicy (bo : ByteOrder) (deps : PolicyDeps) (chain : Chain) (podInfo : PodInfo)
    (direction : Str) (p : InternalPolicy) : Render Bool := do
  let newRules ← wrapErr (str "failed to apply pod " ++ direction ++ str " rules for policy " ++
    quote (policyNamespacedName p.policy))
    (applyPodRules bo deps chain podInfo p.policy p.policyNetworks)
  wrapErr (str "failed to apply mark check rule in chain " ++ quote chain.name)
    (applyGeneralMarkCheck bo chain p.policy)
  return newRules

/-- The policies of a direction and the final drop. -/
def applyPolicies (bo : ByteOrder) (deps : PolicyDeps) (chain : Chain) (podInfo : PodInfo)
    (direction : Str) (policies : List InternalPolicy) : Render Unit :=
  when (policies.length > 0) do
    let forceUpdate ← orLoop (applyPolicy bo deps chain podInfo direction) policies
    wrapErr (str "failed to apply drop-remaining " ++ direction ++ str " rules")
      (applyDropRemaining chain forceUpdate)

/-- Everything `ApplyPolicyRulesForPodAndFamily` queues for the main flush, after the tables. -/
def renderInput (bo : ByteOrder) (i : Input) : Render Unit := do
  let podName := podNamespacedName i.pod
  let n ← wrapErr (str "bootstrap netfilter rules failed for pod [" ++ podName ++ str "]")
    (bootstrapNetfilterRules bo i.sortedInfo.interfaces)
  wrapErr (str "failed to apply common chain rules for pod [" ++ podName ++ str "]")
    (applyCommonChainRules n i.cfg)
  applyPolicies bo i.deps n.ingressChain i.sortedInfo (str "ingress") i.ingressPolicies
  applyPolicies bo i.deps n.egressChain i.sortedInfo (str "egress") i.egressPolicies

end Render

/-- The first half of `bootstrapNetfilterRules`: the legacy tables and the daemon's tables. -/
def bootstrapTables (h : Host) (i : Input) : M Unit :=
  if i.podInfo.interfaces.length = 0 then
    throw (.text (str "podInfo or podInfo.Interfaces is nil/empty"))
  else do
    cleanupLegacyTables h
    wrapErr (str "failed to add table") (addTable h filterTableName)
    wrapErr (str "failed to add table") (addTable h natTableName)

/-- `ApplyPolicyRulesForPodAndFamily` before its main flush: the batch is queued. -/
def queueRules (h : Host) (i : Input) : M Unit := do
  wrapErr (str "bootstrap netfilter rules failed for pod [" ++ podNamespacedName i.pod ++ str "]")
    (bootstrapTables h i)
  (Render.renderInput h.byteOrder i).run h

/-- `ApplyPolicyRulesForPodAndFamily` up to its main flush. -/
def commitRules (h : Host) (i : Input) : M Unit := do
  queueRules h i
  wrapErr (str "nft flush failed for pod [" ++ podNamespacedName i.pod ++ str "]") (Conn.flush h)

/-- `ApplyPolicyRulesForPodAndFamily`. -/
def applyPolicyRulesForPodAndFamily (h : Host) (i : Input) : M Unit := do
  commitRules h i
  wrapErr (str "failed to cleanup nft") (cleanup h)

end MultiNetPolicy
