import MultiNetPolicy.Nft.Conn
import MultiNetPolicy.Server.Names

/-!
# Policies, pods and label selectors

The Kubernetes objects the daemon renders, with the fields it reads.  `MultiNetworkPolicy` carries
the proofs that its namespace and name are ones the API server accepts, so that later results can
rely on their characters and lengths.  Maps are association lists.
-/

namespace MultiNetPolicy

open ByteString

/-! ### Names of Kubernetes objects -/

def isLowerAlphanumeric (b : UInt8) : Bool := isDigit b || (0x61 ≤ b && b ≤ 0x7a)

/-- `[a-z0-9]([-a-z0-9]*[a-z0-9])?`. -/
def isDNSPart (s : Str) : Bool :=
  s.all (fun b => isLowerAlphanumeric b || b == 0x2d) && s.head?.any isLowerAlphanumeric &&
    s.getLast?.any isLowerAlphanumeric

/-- `IsDNS1123Label`, the form of namespaces. -/
def isDNS1123Label (s : Str) : Bool := s.length ≤ 63 && isDNSPart s

/-- `IsDNS1123Subdomain`, the form of policy names. -/
def isDNS1123Subdomain (s : Str) : Bool := s.length ≤ 253 && (split 0x2e s).all isDNSPart

/-! ### Label selectors -/

abbrev Labels := List (Str × Str)

/-- `metav1.LabelSelectorOperator`. -/
inductive LabelSelectorOperator where
  | isIn
  | notIn
  | exists
  | doesNotExist
  | other (name : Str)
  deriving DecidableEq, Repr

namespace LabelSelectorOperator

def name : LabelSelectorOperator → Str
  | isIn => str "In"
  | notIn => str "NotIn"
  | .exists => str "Exists"
  | doesNotExist => str "DoesNotExist"
  | other s => s

end LabelSelectorOperator

/-- `metav1.LabelSelectorRequirement`. -/
structure LabelSelectorRequirement where
  key : Str
  operator : LabelSelectorOperator
  values : List Str
  deriving DecidableEq, Repr

/-- `metav1.LabelSelector`. -/
structure LabelSelector where
  matchLabels : Labels
  matchExpressions : List LabelSelectorRequirement
  deriving DecidableEq, Repr

def isAlphanumeric (b : UInt8) : Bool := isLowerAlphanumeric b || (0x41 ≤ b && b ≤ 0x5a)

/-- `([A-Za-z0-9][-A-Za-z0-9_.]*)?[A-Za-z0-9]`. -/
def isLabelText (s : Str) : Bool :=
  s.all (fun b => isAlphanumeric b || b == 0x2d || b == 0x5f || b == 0x2e) &&
    s.head?.any isAlphanumeric && s.getLast?.any isAlphanumeric

/-- `IsLabelKey`. -/
def isLabelKey (s : Str) : Bool :=
  match split 0x2f s with
  | [name] => name.length ≤ 63 && isLabelText name
  | [domain, name] => isDNS1123Subdomain domain && name.length ≤ 63 && isLabelText name
  | _ => false

/-- `IsLabelValue`. -/
def isLabelValue (s : Str) : Bool := s.length ≤ 63 && (s.isEmpty || isLabelText s)

namespace LabelSelectorRequirement

/-- The checks of `labels.NewRequirement`. -/
def isValid (r : LabelSelectorRequirement) : Bool :=
  isLabelKey r.key && r.values.all isLabelValue &&
    match r.operator with
    | .isIn => !r.values.isEmpty
    | .notIn => !r.values.isEmpty
    | .exists => r.values.isEmpty
    | .doesNotExist => r.values.isEmpty
    | .other _ => false

/-- `Requirement.Matches`. -/
def isMatch (r : LabelSelectorRequirement) (ls : Labels) : Bool :=
  match r.operator with
  | .isIn => (ls.lookup r.key).any r.values.contains
  | .notIn => !(ls.lookup r.key).any r.values.contains
  | .exists => (ls.lookup r.key).isSome
  | .doesNotExist => (ls.lookup r.key).isNone
  | .other _ => false

/-- `LabelSelectorRequirement.String()` without its ampersand. -/
def render (r : LabelSelectorRequirement) : Str :=
  str "LabelSelectorRequirement\x7bKey:" ++ r.key ++ str ",Operator:" ++ r.operator.name ++
    str ",Values:[" ++ (str " ").intercalate r.values ++ str "],\x7d"

end LabelSelectorRequirement

/-- A `labels.Selector` other than `Nothing`: a conjunction of requirements. -/
abbrev Selector := List LabelSelectorRequirement

def Selector.isMatch (s : Selector) (ls : Labels) : Bool := s.all fun r => r.isMatch ls

namespace LabelSelector

/-- `Size() != 0`: the encoding has a byte for every entry. -/
def hasSize (s : LabelSelector) : Bool := !s.matchLabels.isEmpty || !s.matchExpressions.isEmpty

/-- `metav1.LabelSelectorAsSelector`; a match label is a requirement for one value. -/
def asSelector (s : LabelSelector) : Except Error Selector :=
  let requirements :=
    (s.matchLabels.map fun (k, v) => ⟨k, .isIn, [v]⟩) ++ s.matchExpressions
  if requirements.all LabelSelectorRequirement.isValid then .ok requirements else .error .library

/-- `LabelSelector.String()`. -/
def render (s : LabelSelector) : Str :=
  let labels := s.matchLabels.insertionSort fun a b => le a.1 b.1
  str "&LabelSelector\x7bMatchLabels:map[string]string\x7b" ++
    (labels.flatMap fun (k, v) => k ++ str ": " ++ v ++ str ",") ++
    str "\x7d,MatchExpressions:[]LabelSelectorRequirement\x7b" ++
    (s.matchExpressions.flatMap fun r => r.render ++ str ",") ++ str "\x7d,\x7d"

end LabelSelector

/-! ### Policies -/

/-- `v1.Protocol`. -/
inductive Protocol where
  | tcp
  | udp
  | sctp
  | other (name : Str)
  deriving DecidableEq, Repr

/-- `intstr.IntOrString`. -/
inductive IntOrString where
  | int (v : Int)
  | string (s : Str)
  deriving DecidableEq, Repr

structure MultiNetworkPolicyPort where
  protocol : Option Protocol
  port : Option IntOrString
  endPort : Option Int
  deriving DecidableEq, Repr

structure IPBlock where
  cidr : Str
  except : List Str
  deriving DecidableEq, Repr

structure MultiNetworkPolicyPeer where
  podSelector : Option LabelSelector
  namespaceSelector : Option LabelSelector
  ipBlock : Option IPBlock
  deriving DecidableEq, Repr

/-- An ingress rule (`ports`, `from`) or an egress rule (`ports`, `to`). -/
structure PolicyRule where
  ports : List MultiNetworkPolicyPort
  peers : List MultiNetworkPolicyPeer
  deriving DecidableEq, Repr

/-- A policy as the API server admits it.  `ingress` and `egress` are `none` when the field is
missing, which `getEnabledPolicyTypes` tells apart from an empty list. -/
structure MultiNetworkPolicy where
  «namespace» : Str
  name : Str
  annotations : List (Str × Str)
  podSelector : LabelSelector
  ingress : Option (List PolicyRule)
  egress : Option (List PolicyRule)
  policyTypes : List Str
  namespace_valid : isDNS1123Label «namespace» = true
  name_valid : isDNS1123Subdomain name = true

/-- `policyNamespacedName`. -/
def policyNamespacedName (p : MultiNetworkPolicy) : Str := p.namespace ++ str "/" ++ p.name

/-- `policyRuleNamespacedName`. -/
def policyRuleNamespacedName (p : MultiNetworkPolicy) : Str := p.namespace ++ str "-" ++ p.name

/-! ### Pods -/

structure Pod where
  «namespace» : Str
  name : Str
  labels : Labels
  deriving DecidableEq, Repr

/-- `podNamespacedName`. -/
def podNamespacedName (p : Pod) : Str := p.namespace ++ str "/" ++ p.name

structure InterfaceInfo where
  netattachName : Str
  interfaceName : Str
  interfaceType : Str
  ips : List Str
  deriving DecidableEq, Repr

namespace InterfaceInfo

/-- `InterfaceInfo.CheckPolicyNetwork`. -/
def checkPolicyNetwork (info : InterfaceInfo) (policyNetworks : List Str) : Bool :=
  policyNetworks.any fun n => n == info.netattachName

end InterfaceInfo

structure PodInfo where
  interfaces : List InterfaceInfo
  deriving DecidableEq, Repr

namespace PodInfo

/-- `PodInfo.CheckPolicyNetwork`. -/
def checkPolicyNetwork (info : PodInfo) (policyNetworks : List Str) : Bool :=
  info.interfaces.any fun i => i.checkPolicyNetwork policyNetworks

end PodInfo

/-! ### Configuration and cluster lookups -/

/-- `controllers.CommonRuleConfig`. -/
structure CommonRuleConfig where
  acceptICMPv6 : Bool
  acceptICMP : Bool
  allowSrcPrefix : List Str
  allowDstPrefix : List Str
  deriving DecidableEq, Repr

/-- `controllers.PolicyDeps`, and the order in which `range` visits a map: `mapRange` gives it for
the peer of a chain with an index, when some addresses have been collected already. -/
structure PolicyDeps where
  listPods : Selector → Except Error (List Pod)
  /-- The labels of a namespace. -/
  getNamespaceInfo : Str → Option Labels
  getPodInfo : Pod → Option PodInfo
  mapRange : Str → Nat → List Str → List Str → List Str
  mapRange_perm : ∀ chain index collected keys, (mapRange chain index collected keys).Perm keys

end MultiNetPolicy
