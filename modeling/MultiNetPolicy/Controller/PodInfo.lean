import MultiNetPolicy.Lib.Text
import MultiNetPolicy.Server.Policy

/-!
# What the daemon knows of a pod

Package `controllers`: the pods of the cluster with the fields the daemon reads, the parser of the
annotation `k8s.v1.cni.cncf.io/networks`, `GetPodNetNSPathWithContext` and `NewPodInfoFromPod`,
which joins the networks a pod asked for with the statuses the network plugins reported for it.

`encoding/json` and `slices.SortFunc` are fields of `Library`; the container runtime is a
`RuntimeClient`.
-/

namespace MultiNetPolicy.Controllers

open ByteString

/-- `m[key]` of a map of strings, with the zero value for a missing key. -/
def mapGet (m : List (Str × Str)) (key : Str) : Str := (m.lookup key).getD []

/-! ### Pods -/

/-- `v1.PodPhase`. -/
inductive PodPhase where
  | pending
  | running
  | succeeded
  | failed
  | unknown
  | other (name : Str)
  deriving DecidableEq, Repr

/-- `v1.ContainerStatus`. -/
structure ContainerStatus where
  name : Str
  containerID : Str
  /-- `State.Running != nil`. -/
  running : Bool
  deriving DecidableEq, Repr

/-- A pod as the API server keeps it. -/
structure Pod extends MultiNetPolicy.Pod where
  annotations : List (Str × Str)
  nodeName : Str
  hostNetwork : Bool
  phase : PodPhase
  containerStatuses : List ContainerStatus
  namespace_valid : isDNS1123Label «namespace» = true
  labels_nodup : (labels.map Prod.fst).Nodup
  deriving DecidableEq

/-- `IsMultiNetworkpolicyTarget`. -/
def isMultiNetworkpolicyTarget (pod : Pod) : Bool := pod.phase == .running && !pod.hostNetwork

/-- `CheckNodeNameIdentical` compares host names without their domains. -/
def checkNodeNameIdentical (s1 s2 : Str) : Bool :=
  (split 0x2e s1).headD [] == (split 0x2e s2).headD []

/-! ### The library -/

/-- `types.NamespacedName`. -/
structure NamespacedName where
  «namespace» : Str
  name : Str
  deriving DecidableEq, Repr

/-- `NamespacedName.String`. -/
def NamespacedName.render (n : NamespacedName) : Str := n.namespace ++ str "/" ++ n.name

/-- `netdefv1.NetworkSelectionElement`; the requested interface is not read. -/
structure NetworkSelectionElement where
  «namespace» : Str
  name : Str
  deriving DecidableEq, Repr

/-- `netdefv1.NetworkStatus`. -/
structure NetworkStatus where
  name : Str
  interface : Str
  ips : List Str
  deriving DecidableEq, Repr

/-- What the verbose status of a container says about its process. -/
inductive ContainerInfo where
  /-- Not JSON. -/
  | malformed
  /-- No number under `pid`. -/
  | noPid
  | pid (v : Int)
  deriving DecidableEq, Repr

/-- The library functions the package calls. -/
structure Library where
  /-- `json.Unmarshal` of a list of network selections, `none` when it fails. -/
  networks : Str → Option (List NetworkSelectionElement)
  /-- What `json.Unmarshal` leaves in a list of network statuses, whether it fails or not. -/
  statuses : Str → List NetworkStatus
  /-- The empty text is not JSON, and nothing is read from it. -/
  statuses_nil : statuses [] = []
  /-- `json.Unmarshal` of the verbose status of a container. -/
  containerInfo : Str → ContainerInfo
  /-- `slices.SortFunc` by interface name, which need not be stable. -/
  sortInterfaces : List InterfaceInfo → List InterfaceInfo
  sort_perm : ∀ l, (sortInterfaces l).Perm l
  sort_sorted : ∀ l, (sortInterfaces l).Pairwise fun a b =>
    le a.interfaceName b.interfaceName = true

/-! ### The networks of a pod -/

/-- `v1.NetworkAttachmentAnnot`. -/
def networkAttachmentAnnot : Str := str "k8s.v1.cni.cncf.io/networks"

/-- `v1.NetworkStatusAnnot`. -/
def networkStatusAnnot : Str := str "k8s.v1.cni.cncf.io/network-status"

/-- The loop over `allItems` at the end of `parsePodNetworkObjectText`: an item is empty or a DNS
label. -/
def checkItems : List Str → Except Error Unit
  | [] => .ok ()
  | item :: rest =>
    if !isDNSPart item && item.length > 0 then
      .error (.text
        (str "Failed to parse: one or more items did not match comma-delimited format " ++
        str "(must consist of lower case alphanumeric characters). " ++
        str "Must start and end with an alphanumeric character), mismatch @ '" ++ item ++ str "'"))
    else checkItems rest

/-- The second half of `parsePodNetworkObjectText`: `name` or `name@interface`. -/
def parseNetworkName (netNsName networkName : Str) : Except Error NetworkSelectionElement :=
  match split 0x40 networkName with
  | [name] => (checkItems [netNsName, trimSpace name, []]).map fun _ => ⟨netNsName, trimSpace name⟩
  | [name, ifName] =>
    (checkItems [netNsName, trimSpace name, trimSpace ifName]).map fun _ =>
      ⟨netNsName, trimSpace name⟩
  | _ => .error (.text (str "Invalid network object (failed at '@')"))

/-- `parsePodNetworkObjectText`: `[namespace/]name[@interface]`. -/
def parsePodNetworkObjectText (podnetwork : Str) : Except Error NetworkSelectionElement :=
  match split 0x2f podnetwork with
  | [netNsName, networkName] => parseNetworkName (trimSpace netNsName) networkName
  | [networkName] => parseNetworkName [] networkName
  | _ => .error (.text (str "Invalid network object (failed at '/')"))

/-- The loop of `ParseNetworkAnnotation` over the comma-delimited form. -/
def parseNetworkItems : List Str → Except Error (List NetworkSelectionElement)
  | [] => .ok []
  | item :: rest =>
    match parsePodNetworkObjectText (trimSpace item) with
    | .error e => .error (.wrap (str "parsePodNetworkAnnotation") e)
    | .ok n => (parseNetworkItems rest).map fun ns => n :: ns

/-- `ParseNetworkAnnotation`: JSON when one of the bytes `[`, the opening brace and the quotation
mark occurs, else a comma-delimited list. -/
def parseNetworkAnnotation (lib : Library) (podNetworks defaultNamespace : Str) :
    Except Error (List NetworkSelectionElement) :=
  let networks : Except Error (List NetworkSelectionElement) :=
    if podNetworks = [] then
      .error (.text (str "parsePodNetworkAnnotation: pod annotation not having \"network\" as key"))
    else if podNetworks.any fun b => b == 0x5b || b == 0x7b || b == 0x22 then
      match lib.networks podNetworks with
      | none => .error (.wrap (str "parsePodNetworkAnnotation: failed to parse pod " ++
          str "Network Attachment Selection Annotation JSON format") .library)
      | some networks => .ok networks
    else parseNetworkItems (split 0x2c podNetworks)
  networks.map fun ns => ns.map fun n =>
    if n.namespace = [] then { n with «namespace» := defaultNamespace } else n

/-- `ParsePodNetworkAnnotation`. -/
def parsePodNetworkAnnotation (lib : Library) (pod : Pod) :
    Except Error (List NetworkSelectionElement) :=
  let netAnnot := mapGet pod.annotations networkAttachmentAnnot
  if netAnnot.length = 0 then .error (.text (str "no kubernetes network found"))
  else parseNetworkAnnotation lib netAnnot pod.namespace

/-- `GetNetworkStatus`; its errors are only logged. -/
def getNetworkStatus (lib : Library) (pod : Pod) : List NetworkStatus :=
  match pod.annotations.lookup networkStatusAnnot with
  | none => []
  | some netStatusesJson => lib.statuses netStatusesJson

/-! ### The network namespace -/

/-- A connection to the container runtime: `ContainerStatus` of a container, the map `Info` of its
response. -/
structure RuntimeClient where
  containerStatus : Str → Except Error (List (Str × Str))

/-- `selectContainerID`: a running container first, then any that has an identifier. -/
def selectContainerID (statuses : List ContainerStatus) : Str :=
  match statuses.find? fun s => s.containerID != [] && s.running with
  | some s => s.containerID
  | none =>
    match statuses.find? fun s => s.containerID != [] with
    | some s => s.containerID
    | none => []

/-- The switch of `GetPodNetNSPathWithContext`, whose only case asks the runtime. -/
def containerNetNSPath (lib : Library) (criClient : Option RuntimeClient) (containerID : Str) :
    Except Error Str :=
  match criClient with
  | none => .error (.text (str "cannot find cri client"))
  | some client =>
    match client.containerStatus containerID with
    | .error e => .error (.wrap (str "cannot get containerStatus") e)
    | .ok info =>
      match lib.containerInfo (mapGet info (str "info")) with
      | .malformed => .error (.wrap (str "cannot unmarshal containerStatus info") .library)
      | .noPid => .error (.text (str "cannot get pid from containerStatus info"))
      | .pid v => .ok (str "/proc/" ++ decimalInt v ++ str "/ns/net")

/-- `GetPodNetNSPathWithContext`. -/
def getPodNetNSPathWithContext (lib : Library) (criClient : Option RuntimeClient) (pod : Pod) :
    Except Error Str :=
  if pod.phase ≠ .running then .error (.text (str "pod is not running"))
  else if pod.containerStatuses.length = 0 then .error (.text (str "no container status"))
  else
    let containerIDRaw := selectContainerID pod.containerStatuses
    if containerIDRaw = [] then .error (.text (str "no container ID"))
    else
      match cut (str "://") containerIDRaw with
      | none => .error (.text (str "invalid container ID " ++ quote containerIDRaw))
      | some (_, containerID) =>
        if containerID = [] then
          .error (.text (str "invalid container ID " ++ quote containerIDRaw))
        else containerNetNSPath lib criClient containerID

/-! ### Pod information -/

/-- `controllers.PodInfo`. -/
structure PodInfo extends MultiNetPolicy.PodInfo where
  name : Str
  «namespace» : Str
  netNSPath : Str
  networkStatus : List NetworkStatus
  nodeName : Str
  deriving DecidableEq, Repr

/-- `NetDefResolver.GetPluginType`. -/
abbrev NetDefResolver := NamespacedName → Except Error Str

/-- The attachment a network selection names. -/
def selectedAttachment (podNamespace : Str) (n : NetworkSelectionElement) : NamespacedName :=
  ⟨if n.namespace ≠ [] then n.namespace else podNamespace, n.name⟩

/-- The loop of `NewPodInfoFromPod` that fills `networkPluginsMap`. -/
def fillPluginsMap (resolver : NetDefResolver) (podNamespace : Str) :
    List (NamespacedName × Str) → List NetworkSelectionElement →
      Except Error (List (NamespacedName × Str))
  | m, [] => .ok m
  | m, n :: ns =>
    let namespacedName := selectedAttachment podNamespace n
    if (m.lookup namespacedName).isSome then fillPluginsMap resolver podNamespace m ns
    else
      match resolver namespacedName with
      | .error e => .error (.wrap (str "resolve plugin type for network attachment " ++
          namespacedName.render) e)
      | .ok pluginType =>
        fillPluginsMap resolver podNamespace (m ++ [(namespacedName, pluginType)]) ns

/-- The attachment a network status is about. -/
def statusAttachment (podNamespace statusName : Str) : NamespacedName :=
  match split 0x2f statusName with
  | [netNamespace, netName] => ⟨trimSpace netNamespace, netName⟩
  | _ => ⟨podNamespace, statusName⟩

/-- The interfaces of one network status: one for each plugin name that equals the type of its
attachment, which is empty for an attachment that is not in the map. -/
def statusInterfaces (networkPluginsMap : List (NamespacedName × Str)) (networkPlugins : List Str)
    (podNamespace : Str) (s : NetworkStatus) : List InterfaceInfo :=
  let pluginType := (networkPluginsMap.lookup (statusAttachment podNamespace s.name)).getD []
  (networkPlugins.filter fun pluginName => pluginType == pluginName).map fun _ =>
    ⟨s.name, s.interface, pluginType, s.ips⟩

/-- What `NewPodInfoFromPod` finds out about a running pod with its own network: the statuses, the
interfaces and the path of the network namespace. -/
def readNetworks (lib : Library) (pod : Pod) (criClient : Option RuntimeClient) (hostname : Str)
    (networkPlugins : List Str) (resolver : NetDefResolver) :
    Except Error (List NetworkStatus × List InterfaceInfo × Str) := do
  -- an annotation that cannot be parsed is logged and counts as empty
  let networks := (Except.toOption <| parsePodNetworkAnnotation lib pod).getD []
  let statuses := getNetworkStatus lib pod
  let networkPluginsMap ← fillPluginsMap resolver pod.namespace [] networks
  let netifs := statuses.flatMap (statusInterfaces networkPluginsMap networkPlugins pod.namespace)
  if netifs.length > 0 ∧ checkNodeNameIdentical hostname pod.nodeName ∧ criClient.isSome then
    let netnsPath ← (getPodNetNSPathWithContext lib criClient pod).mapError
      (.wrap (str "resolve pod network namespace"))
    return (statuses, netifs, netnsPath)
  else return (statuses, netifs, [])

/-- `NewPodInfoFromPod`. -/
def newPodInfoFromPod (lib : Library) (pod : Pod) (criClient : Option RuntimeClient)
    (hostname : Str) (networkPlugins : List Str) (resolver : NetDefResolver) :
    Except Error PodInfo := do
  let (statuses, netifs, netnsPath) ←
    if isMultiNetworkpolicyTarget pod then
      readNetworks lib pod criClient hostname networkPlugins resolver
    else .ok ([], [], [])
  return {
    name := pod.name
    «namespace» := pod.namespace
    netNSPath := netnsPath
    networkStatus := statuses
    nodeName := pod.nodeName
    interfaces := lib.sortInterfaces netifs }

end MultiNetPolicy.Controllers
