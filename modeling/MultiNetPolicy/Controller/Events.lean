import MultiNetPolicy.Controller.PodInfo

/-!
# From events to requests

Package `controller`: the predicates that drop events, the mappers that turn an object into requests
for nodes, and `SetupWithManager`, which combines them for each kind of object it watches.
-/

namespace MultiNetPolicy.Controller

open ByteString Controllers

/-- What controller-runtime reports about an object. -/
inductive Event (α : Type) where
  | create (obj : α)
  | delete (obj : α)
  | update (objOld objNew : α)
  | generic (obj : α)

namespace Event

/-- The versions of the object an event carries. -/
def versions {α : Type} : Event α → List α
  | create obj => [obj]
  | delete obj => [obj]
  | update objOld objNew => [objOld, objNew]
  | generic obj => [obj]

end Event

/-! ### Predicates -/

/-- `labelsChanged`. -/
def labelsChanged (oldLabels newLabels : Labels) : Bool :=
  oldLabels.length != newLabels.length ||
    oldLabels.any fun (key, oldVal) => newLabels.lookup key != some oldVal

/-- `containerStatusesChanged`; a later status of the same name replaces an earlier one in
`oldByName`. -/
def containerStatusesChanged (oldStatuses newStatuses : List ContainerStatus) : Bool :=
  let oldByName := (oldStatuses.map fun s => (s.name, s.containerID)).reverse
  oldStatuses.length != newStatuses.length ||
    newStatuses.any fun s => oldByName.lookup s.name != some s.containerID

/-- `networkAnnotationKeys`. -/
def networkAnnotationKeys : List Str := [networkStatusAnnot, networkAttachmentAnnot]

/-- `networkAnnotationsChanged`. -/
def networkAnnotationsChanged (oldAnnotations newAnnotations : List (Str × Str)) : Bool :=
  networkAnnotationKeys.any fun key => mapGet oldAnnotations key != mapGet newAnnotations key

/-- `policyNetworkAnnotationChanged`. -/
def policyNetworkAnnotationChanged (oldAnnotations newAnnotations : List (Str × Str)) : Bool :=
  mapGet oldAnnotations policyNetworkAnnotation != mapGet newAnnotations policyNetworkAnnotation

/-- The `UpdateFunc` of `PodPredicate`. -/
def podUpdate (oldPod newPod : Controllers.Pod) : Bool :=
  oldPod.phase != newPod.phase || oldPod.nodeName != newPod.nodeName ||
    labelsChanged oldPod.labels newPod.labels ||
    containerStatusesChanged oldPod.containerStatuses newPod.containerStatuses ||
    networkAnnotationsChanged oldPod.annotations newPod.annotations

/-- `PodPredicate`. -/
def podPredicate : Event Controllers.Pod → Bool
  | .create _ => true
  | .delete _ => true
  | .update oldPod newPod => podUpdate oldPod newPod
  | .generic _ => false

/-- A policy with the generation the API server gave it. -/
structure VersionedPolicy extends MultiNetworkPolicy where
  generation : Int

/-- The `UpdateFunc` of `PolicyPredicate`. -/
def policyUpdate (oldPolicy newPolicy : VersionedPolicy) : Bool :=
  oldPolicy.generation != newPolicy.generation ||
    policyNetworkAnnotationChanged oldPolicy.annotations newPolicy.annotations

/-- `PolicyPredicate`. -/
def policyPredicate : Event VersionedPolicy → Bool
  | .create _ => true
  | .delete _ => true
  | .update oldPolicy newPolicy => policyUpdate oldPolicy newPolicy
  | .generic _ => false

/-- `NodePredicate`, for nodes given by their names. -/
def nodePredicate (nodeName : Str) : Event Str → Bool
  | .create obj => obj == nodeName
  | .delete obj => obj == nodeName
  | .update _ objNew => objNew == nodeName
  | .generic obj => obj == nodeName

/-! ### Mappers -/

/-- `reconcile.Request`. -/
abbrev Request := NamespacedName

/-- The request for a node. -/
def nodeRequest (nodeName : Str) : Request := ⟨[], nodeName⟩

/-- `mapPodToNode`: the pod's own node, whatever the local one is. -/
def mapPodToNode (_nodeName : Str) (pod : Controllers.Pod) : List Request :=
  if pod.nodeName = [] then [] else [nodeRequest pod.nodeName]

/-- A mapper to the local node. -/
def mapToNode {α : Type} (nodeName : Str) (_obj : α) : List Request := [nodeRequest nodeName]

/-- `mapPolicyToNode`. -/
def mapPolicyToNode (nodeName : Str) : VersionedPolicy → List Request := mapToNode nodeName

/-- `mapNamespaceToNode`, for namespaces given by their names. -/
def mapNamespaceToNode (nodeName : Str) : Str → List Request := mapToNode nodeName

/-- `mapNetDefToNode`, for network attachment definitions given by their names. -/
def mapNetDefToNode (nodeName : Str) : NamespacedName → List Request := mapToNode nodeName

/-! ### Handlers -/

/-- `handler.EnqueueRequestsFromMapFunc`: an update enqueues for both versions. -/
def enqueueRequestsFromMapFunc {α : Type} (f : α → List Request) (e : Event α) : List Request :=
  (e.versions.flatMap f).dedup

/-- `handler.EnqueueRequestForObject` for nodes. -/
def enqueueRequestForObject : Event Str → List Request
  | .create obj => [nodeRequest obj]
  | .delete obj => [nodeRequest obj]
  | .update _ objNew => [nodeRequest objNew]
  | .generic obj => [nodeRequest obj]

/-- An event of one of the watched kinds. -/
inductive WatchEvent where
  | node (e : Event Str)
  | pod (e : Event Controllers.Pod)
  | policy (e : Event VersionedPolicy)
  | netDef (e : Event NamespacedName)
  | «namespace» (e : Event Str)

/-- `SetupWithManager`: the requests an event puts into the queue of the node `nodeName`. -/
def requests (nodeName : Str) : WatchEvent → List Request
  | .node e => if nodePredicate nodeName e then enqueueRequestForObject e else []
  | .pod e =>
    if podPredicate e then enqueueRequestsFromMapFunc (mapPodToNode nodeName) e else []
  | .policy e =>
    if policyPredicate e then enqueueRequestsFromMapFunc (mapPolicyToNode nodeName) e else []
  | .netDef e => enqueueRequestsFromMapFunc (mapNetDefToNode nodeName) e
  | .namespace e => enqueueRequestsFromMapFunc (mapNamespaceToNode nodeName) e

end MultiNetPolicy.Controller
