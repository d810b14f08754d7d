import MultiNetPolicy.Controller.Events
import MultiNetPolicy.Server.Apply

/-!
# The reconciler of a node

`NodeReconciler` answers the lookups of the renderer from the cluster (`policyDeps`) and, for a
request for its own node, applies the policies to every pod of that node (`reconcile`).

The cluster is read through a `Client`.  The cache hands its objects out in any order, and Go ranges
over a map in any order; a reconcile takes these orders as an argument (`ReconcileOrder`).  The
rulesets of a node are a map from the paths of network namespaces; `applyRulesForPod` opens one of
them and runs `ApplyPolicyRulesForPodAndFamily` there.
-/

namespace MultiNetPolicy.Controller

open ByteString Controllers

/-- `netdefv1.NetworkAttachmentDefinition`. -/
structure NetworkAttachmentDefinition where
  namespacedName : NamespacedName
  config : Str
  deriving DecidableEq, Repr

/-- What the API server, or the cache in front of it, answers. -/
structure Client where
  listPolicies : Except Error (List MultiNetworkPolicy)
  listPods : Except Error (List Controllers.Pod)
  /-- The labels of a namespace. -/
  getNamespace : Str → Except Error Labels
  getNetDef : NamespacedName → Except Error NetworkAttachmentDefinition
  /-- A policy is known by its namespace and name. -/
  policies_nodup : ∀ policies, listPolicies = .ok policies →
    (policies.map fun p => (p.namespace, p.name)).Nodup
  /-- A pod is known by its namespace and name. -/
  pods_nodup : ∀ pods, listPods = .ok pods → (pods.map fun p => (p.namespace, p.name)).Nodup

/-- The order in which `range` visits a map (`PolicyDeps.mapRange`). -/
structure MapOrder where
  mapRange : Str → Nat → List Str → List Str → List Str
  mapRange_perm : ∀ chain index collected keys, (mapRange chain index collected keys).Perm keys

/-- An order in which a collection is handed out. -/
structure Arrangement (α : Type) where
  arrange : List α → List α
  perm : ∀ l, (arrange l).Perm l

/-- The orders that a run for one pod meets: of its maps, and of the pods it lists. -/
structure RunOrder extends MapOrder where
  policyRange : Arrangement MultiNetworkPolicy
  listPods : Selector → Arrangement Pod

/-- The orders that a reconcile meets: of the policies and pods it lists, and of its runs. -/
structure ReconcileOrder where
  policies : Arrangement MultiNetworkPolicy
  pods : Arrangement Controllers.Pod
  run : Controllers.Pod → RunOrder

/-- The policy map, in the order in which a run ranges over it. -/
def RunOrder.policyMap (order : RunOrder) (m : PolicyMap) : PolicyMap where
  policies := order.policyRange.arrange m.policies
  keys_nodup := ((order.policyRange.perm m.policies).map _).nodup_iff.2 m.keys_nodup

/-- The library functions of the reconciler, besides those of package `controllers`. -/
structure CNILibrary where
  /-- `netdefutils.GetCNIConfig`. -/
  getCNIConfig : NetworkAttachmentDefinition → Except Error Str
  /-- `json.Unmarshal` of a configuration list: the types of its plugins. -/
  netConfList : Str → Except Error (List Str)
  /-- `json.Unmarshal` of a single configuration: its type. -/
  netConf : Str → Except Error Str

/-- `NodeReconciler`.  `connect` is `GetCriRuntimeClientWithContext`; a connection it made is kept
in `CriClient` and answers as a new one would. -/
structure NodeReconciler where
  nodeName : Str
  client : Client
  hostPrefix : Str
  networkPlugins : List Str
  commonCfg : CommonRuleConfig
  criClient : Option RuntimeClient
  containerRuntimeEndpoint : Str
  connect : Str → Str → Except Error RuntimeClient
  library : Library
  cniLibrary : CNILibrary

/-! ### Lookups -/

/-- `resolvePluginType`: the type of the first plugin of a list, or of a single configuration. -/
def resolvePluginType (cni : CNILibrary) (cl : Client) (namespacedName : NamespacedName) :
    Except Error Str := do
  let nad ← (cl.getNetDef namespacedName).mapError
    (.wrap (str "get network attachment definition"))
  let confBytes ← (cni.getCNIConfig nad).mapError (.wrap (str "get CNI config"))
  let parsing := str "parse CNI config for network attachment " ++ namespacedName.render
  match cni.netConfList confBytes, cni.netConf confBytes with
  | .ok (pluginType :: _), _ => return pluginType
  | .ok [], .ok pluginType =>
    if pluginType ≠ [] then return pluginType
    else throw (.text (parsing ++ str ": plugin type is empty"))
  | .error _, .ok pluginType =>
    if pluginType ≠ [] then return pluginType else throw (.wrap parsing .library)
  | _, .error _ => throw (.wrap parsing .library)

namespace NodeReconciler

/-- `GetPluginType`. -/
def getPluginType (r : NodeReconciler) : NetDefResolver := resolvePluginType r.cniLibrary r.client

/-- `criRuntimeClient`. -/
def criRuntimeClient (r : NodeReconciler) : Except Error RuntimeClient :=
  match r.criClient with
  | some c => .ok c
  | none =>
    if r.containerRuntimeEndpoint = [] then .error (.text (str "CRI runtime endpoint is empty"))
    else (r.connect r.containerRuntimeEndpoint r.hostPrefix).mapError
      (.wrap (str "connect to CRI runtime " ++ quote r.containerRuntimeEndpoint))

/-- What `GetPodInfo` knows of a pod from its annotations: `NewPodInfoFromPod` without a runtime
client. -/
def annotatedInfo (r : NodeReconciler) (pod : Controllers.Pod) : Except Error Controllers.PodInfo :=
  (newPodInfoFromPod r.library pod none r.nodeName r.networkPlugins r.getPluginType).mapError
    (.wrap (str "build pod info for " ++ podNamespacedName pod.toPod))

/-- The second half of `GetPodInfo`, for a pod of this node: the path of its network namespace. -/
def resolveNetNS (r : NodeReconciler) (pod : Controllers.Pod) : Except Error Str := do
  let criClient ← r.criRuntimeClient
  let resolving := str "resolve pod network namespace for " ++ podNamespacedName pod.toPod
  let netnsPath ← (getPodNetNSPathWithContext r.library (some criClient) pod).mapError
    (.wrap resolving)
  if netnsPath = [] then throw (.text (resolving ++ str ": empty netns path"))
  return netnsPath

/-- `GetPodInfo`. -/
def getPodInfo (r : NodeReconciler) (pod : Controllers.Pod) :
    Except Error Controllers.PodInfo := do
  let podInfo ← r.annotatedInfo pod
  if podInfo.interfaces.length = 0 ∨ ¬ checkNodeNameIdentical r.nodeName pod.nodeName then
    return podInfo
  else
    let netnsPath ← r.resolveNetNS pod
    return { podInfo with netNSPath := netnsPath }

/-- `NodeReconciler` as `PolicyDeps`.  The renderer hands the pods of a listing back to
`GetPodInfo`, which sees all of their fields. -/
def policyDeps (r : NodeReconciler) (order : MapOrder) : PolicyDeps where
  listPods selector := r.client.listPods.map fun pods =>
    (pods.filter fun p => selector.isMatch p.labels).map Controllers.Pod.toPod
  getNamespaceInfo ns := (r.client.getNamespace ns).toOption
  getPodInfo sPod :=
    ((r.client.listPods.toOption.getD []).find? fun p => p.toPod == sPod).bind fun pod =>
      (r.getPodInfo pod).toOption.map Controllers.PodInfo.toPodInfo
  mapRange := order.mapRange
  mapRange_perm := order.mapRange_perm

/-- `policyDeps`, for a run that meets the pods of a selector in its own order. -/
def runDeps (r : NodeReconciler) (order : RunOrder) : PolicyDeps :=
  { r.policyDeps order.toMapOrder with
    listPods := fun selector => ((r.policyDeps order.toMapOrder).listPods selector).map
      (order.listPods selector).arrange }

end NodeReconciler

/-! ### Reconciling -/

/-- `m[key] = policy`. -/
def insertPolicy (m : List MultiNetworkPolicy) (p : MultiNetworkPolicy) :
    List MultiNetworkPolicy :=
  (m.filter fun q => (q.namespace, q.name) != (p.namespace, p.name)) ++ [p]

/-- A policy replaces the one with its name. -/
theorem nodup_insertPolicy {m : List MultiNetworkPolicy} (p : MultiNetworkPolicy)
    (h : (m.map fun q => (q.namespace, q.name)).Nodup) :
    ((insertPolicy m p).map fun q => (q.namespace, q.name)).Nodup := by
  have hkept := h.sublist ((List.filter_sublist (l := m)
    (p := fun q => (q.namespace, q.name) != (p.namespace, p.name))).map _)
  rw [insertPolicy, List.map_append, List.nodup_append]
  refine ⟨hkept, List.nodup_singleton _, ?_⟩
  rintro key hkey _ hp rfl
  obtain ⟨q, hq, rfl⟩ := List.mem_map.1 hkey
  have hne := (List.mem_filter.1 hq).2
  rw [bne_iff_ne] at hne
  exact hne (List.mem_singleton.1 hp)

/-- The policies of a map have distinct names. -/
theorem nodup_foldl_insertPolicy {policies m : List MultiNetworkPolicy}
    (h : (m.map fun q => (q.namespace, q.name)).Nodup) :
    ((policies.foldl insertPolicy m).map fun q => (q.namespace, q.name)).Nodup := by
  induction policies generalizing m with
  | nil => exact h
  | cons p ps ih => exact ih (nodup_insertPolicy p h)

/-- `buildPolicyMap`. -/
def buildPolicyMap (policies : List MultiNetworkPolicy) : PolicyMap where
  policies := policies.foldl insertPolicy []
  keys_nodup := nodup_foldl_insertPolicy List.nodup_nil

/-- The rulesets of the network namespaces of a node, by path. -/
abbrev NetNamespaces := Str → Option Kernel

/-- The machine `applyRulesForPod` runs on: `nftables.New` in a namespace, and what a run there
meets. -/
structure NodeHost where
  openNftables : Str → Except Error Unit
  host : Str → Host

/-- The path a network namespace has for the daemon. -/
def hostPath (hostPrefix netNSPath : Str) : Str :=
  if hostPrefix ≠ [] then hostPrefix ++ str "/" ++ netNSPath else netNSPath

/-- `applyRulesForPod`: the error, if any, and the rulesets afterwards.  A panic of the run goes
through it (`Error.panicked`). -/
def applyRulesForPod (env : NodeHost) (i : Input) (netnsPath : Str) (netns : NetNamespaces) :
    Option Error × NetNamespaces :=
  let podName := str "pod (" ++ podNamespacedName i.pod ++ str ")"
  match netns netnsPath with
  | none => (some (.wrap (str "cannot get " ++ podName ++ str " netns (" ++ netnsPath ++ str ")")
      .library), netns)
  | some kernel =>
    match env.openNftables netnsPath with
    | .error e => (some (.wrap (str "failed to open nftables for " ++ podName) e), netns)
    | .ok () =>
      match applyPolicyRulesForPodAndFamily (env.host netnsPath) i (.new kernel) with
      | .ok _ s => (none, Function.update netns netnsPath (some s.kernel))
      | .error e s => (some e, Function.update netns netnsPath (some s.kernel))

namespace NodeReconciler

/-- One pod of the loop of `Reconcile`: the errors so far and the rulesets. -/
def reconcilePod (r : NodeReconciler) (orders : Controllers.Pod → RunOrder) (env : NodeHost)
    (policyMap : PolicyMap) (st : List Error × NetNamespaces) (pod : Controllers.Pod) :
    List Error × NetNamespaces :=
  if !isMultiNetworkpolicyTarget pod then st
  else
    match r.getPodInfo pod with
    | .error e =>
      (st.1 ++ [.wrap (str "get pod info for " ++ podNamespacedName pod.toPod) e], st.2)
    | .ok podInfo =>
      if podInfo.interfaces.length = 0 then st
      else
        let i : Input := ⟨r.runDeps (orders pod), r.commonCfg, (orders pod).policyMap policyMap,
          pod.toPod, podInfo.toPodInfo⟩
        match applyRulesForPod env i (hostPath r.hostPrefix podInfo.netNSPath) st.2 with
        | (none, netns) => (st.1, netns)
        | (some e, netns) =>
          (st.1 ++ [e.within (str "apply rules for " ++ podNamespacedName pod.toPod)], netns)

/-- The loop of `Reconcile`.  A panic leaves the loop with what the pods before have done; the
controller recovers it, and it is reported in place of the errors of these pods. -/
def reconcilePods (r : NodeReconciler) (orders : Controllers.Pod → RunOrder) (env : NodeHost)
    (policyMap : PolicyMap) :
    List Controllers.Pod → List Error × NetNamespaces → List Error × NetNamespaces
  | [], st => st
  | pod :: pods, st =>
    let st' := r.reconcilePod orders env policyMap st pod
    if .panicked ∈ st'.1 then ([.panicked], st'.2)
    else r.reconcilePods orders env policyMap pods st'

/-- The pods that the index `PodHostnameIndex` has for the node; `podHostnameExtractor` leaves pods
out that are not scheduled yet. -/
def localPods (r : NodeReconciler) (pods : List Controllers.Pod) : List Controllers.Pod :=
  pods.filter fun p => p.nodeName != [] && p.nodeName == r.nodeName

/-- `Reconcile` for a request it acts on. -/
def reconcileNode (r : NodeReconciler) (order : ReconcileOrder) (env : NodeHost)
    (netns : NetNamespaces) : List Error × NetNamespaces :=
  match r.client.listPolicies with
  | .error e => ([.wrap (str "list policies") e], netns)
  | .ok policies =>
    match r.client.listPods with
    | .error e => ([.wrap (str "list pods for node " ++ r.nodeName) e], netns)
    | .ok pods =>
      r.reconcilePods order.run env (buildPolicyMap (order.policies.arrange policies))
        (r.localPods (order.pods.arrange pods)) ([], netns)

/-- `Reconcile` does not return at once. -/
def actsOn (r : NodeReconciler) (req : Request) : Bool := req.name == r.nodeName

/-- `Reconcile`: the errors that make the request come back, and the rulesets afterwards. -/
def reconcile (r : NodeReconciler) (order : ReconcileOrder) (env : NodeHost) (req : Request)
    (netns : NetNamespaces) : List Error × NetNamespaces :=
  if !r.actsOn req then ([], netns) else r.reconcileNode order env netns

end NodeReconciler

end MultiNetPolicy.Controller
