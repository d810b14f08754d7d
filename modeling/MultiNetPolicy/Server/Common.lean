import MultiNetPolicy.Server.Render

/-!
# Base chains and common rules

The objects every pod gets: the base chains with their interface filter, the entry chains
`multi-ingress` and `multi-egress` with the jump to their common chain, and the rules of the common
chains (`applyCommonChainRules`).
-/

namespace MultiNetPolicy

open ByteString

/-! ### Shared expressions -/

/-- A rule to be installed. -/
def newRule (chain : Chain) (comment : Str) (exprs : List Expr) : Rule where
  table := chain.table
  chain := chain.name
  handle := 0
  userData := userDataComment comment
  exprs := exprs

/-- The interface of the packet is in a set. -/
def interfaceIn (key : MetaKey) (set : NftSet) : List Expr :=
  [.metaExpr key false 1, .lookup 1 set.name set.id]

def protocolIs (key : MetaKey) (proto : UInt8) : List Expr :=
  [.metaExpr key false 1, .cmp .eq 1 [proto]]

/-- The address at an offset of the network header is in a set. -/
def addressIn (nfProtocol : UInt8) (offset len : Nat) (set : NftSet) : List Expr :=
  protocolIs .nfproto nfProtocol ++
    [.payload 1 .networkHeader offset len, .lookup 1 set.name set.id]

def nfprotoIPv4 : UInt8 := 2
def nfprotoIPv6 : UInt8 := 10
def ipprotoICMP : UInt8 := 1
def ipprotoICMPv6 : UInt8 := 58
def ipprotoTCP : UInt8 := 6
def ipprotoUDP : UInt8 := 17
def ipprotoSCTP : UInt8 := 132

/-! ### Prefixes as set intervals -/

/-- `convertPrefixToSet`. -/
def convertPrefixToSet (p : NetIP.IPPrefix) : List SetElement :=
  let zero := List.replicate (if p.is4 then 4 else 16) 0
  [⟨p.first, false, []⟩, ⟨p.afterLast.getD zero, true, []⟩]

/-- The loop of `getPrefixesAsSetInterval`: the IPv4 and the IPv6 elements.  The prefix at index 0
is preceded by the end marker of the address zero in its own family. -/
def prefixesFrom : Nat → List Str → Except Error (List SetElement × List SetElement)
  | _, [] => .ok ([], [])
  | index, addr :: rest =>
    match NetIP.parsePrefix addr with
    | none => .error (.wrap (str "failed to parse CIDR " ++ quote addr ++ str " prefix[" ++
        decimal index ++ str "]") .library)
    | some p =>
      match prefixesFrom (index + 1) rest with
      | .error e => .error e
      | .ok (v4, v6) =>
        let marker : List SetElement :=
          if index = 0 then [⟨List.replicate (if p.is4 then 4 else 16) 0, true, []⟩] else []
        let els := marker ++ convertPrefixToSet p
        .ok (if p.is4 then (els ++ v4, v6) else (v4, els ++ v6))

/-- `getPrefixesAsSetInterval`. -/
def getPrefixesAsSetInterval (prefixes : List Str) :
    Except Error (List SetElement × List SetElement) := prefixesFrom 0 prefixes

/-! ### The state of a run -/

/-- The chains of `nftState`, and the byte order rules are written in. -/
structure NftState where
  byteOrder : ByteOrder
  input : Chain
  output : Chain
  prerouting : Chain
  ingressChain : Chain
  egressChain : Chain
  commonIngressChain : Chain
  commonEgressChain : Chain

namespace Render

/-! ### Bootstrap -/

/-- `bootstrapNetfilterChains`. -/
def bootstrapNetfilterChains (bo : ByteOrder) : Render NftState := do
  let input ← wrapErr (str "failed to create input chain") (addChain
    ⟨filterTableName, str "input", some ⟨str "filter", str "input", 0⟩⟩)
  let output ← wrapErr (str "failed to create output chain") (addChain
    ⟨filterTableName, str "output", some ⟨str "filter", str "output", 0⟩⟩)
  let prerouting ← wrapErr (str "failed to create prerouting chain") (addChain
    ⟨natTableName, str "prerouting", some ⟨str "nat", str "prerouting", -100⟩⟩)
  let ingress ← wrapErr (str "failed to create multi-ingress chain") (addChain
    ⟨filterTableName, MultiNetPolicy.ingressChain, none⟩)
  let egress ← wrapErr (str "failed to create multi-egress chain") (addChain
    ⟨filterTableName, MultiNetPolicy.egressChain, none⟩)
  let commonIngress ← wrapErr (str "failed to create multi-ingress-common chain") (addChain
    ⟨filterTableName, commonChainName MultiNetPolicy.ingressChain, none⟩)
  let commonEgress ← wrapErr (str "failed to create multi-egress-common chain") (addChain
    ⟨filterTableName, commonChainName MultiNetPolicy.egressChain, none⟩)
  return ⟨bo, input, output, prerouting, ingress, egress, commonIngress, commonEgress⟩

/-- The elements of the interface sets; the interfaces are sorted by name. -/
def interfaceSetElements : Nat → List InterfaceInfo → List SetElement
  | _, [] => []
  | index, multiIF :: rest =>
    ⟨ifname multiIF.interfaceName, false,
      str "pod interface [" ++ decimal index ++ str "]: " ++ multiIF.interfaceName⟩ ::
      interfaceSetElements (index + 1) rest

def interfaceSet (table comment : Str) : NftSet where
  table := table
  name := podInterfacesName
  id := 0
  anonymous := false
  constant := false
  interval := false
  counter := true
  keyType := .ifName
  comment := comment

/-- The jump from an entry chain to its common chain. -/
def commonJumpRule (chain commonChain : Chain) (comment : Str) : Rule :=
  newRule chain comment [.counter, .verdict .jump commonChain.name]

/-- The second half of `bootstrapNetfilterRules`, after the tables. -/
def bootstrapNetfilterRules (bo : ByteOrder) (interfaces : List InterfaceInfo) :
    Render NftState := do
  let n ← bootstrapNetfilterChains bo
  let elements := interfaceSetElements 0 interfaces
  let filterSet ← wrapErr (str "failed to update set " ++ quote podInterfacesName)
    (updateSet (interfaceSet filterTableName (str "Pod interfaces")) elements)
  let _ ← wrapErr (str "failed to install rule") (updateRule
    (newRule n.input inputInterfaceFilterComment
      (interfaceIn .iifname filterSet ++ [.counter, .verdict .jump n.ingressChain.name]))
    .insertRule false)
  let _ ← wrapErr (str "failed to install rule") (updateRule
    (newRule n.output outputInterfaceFilterComment
      (interfaceIn .oifname filterSet ++ [.counter, .verdict .jump n.egressChain.name]))
    .insertRule false)
  let natSet ← wrapErr (str "failed to update set " ++ quote podInterfacesName)
    (updateSet (interfaceSet natTableName (str "Pod interfaces NAT")) elements)
  let _ ← updateRule
    (newRule n.prerouting natFilterRuleComment
      (interfaceIn .iifname natSet ++ [.counter, .verdict .ret []]))
    .insertRule false
  let _ ← updateRule
    (commonJumpRule n.ingressChain n.commonIngressChain (str "common-ingress-chain"))
    .insertRule false
  let _ ← updateRule
    (commonJumpRule n.egressChain n.commonEgressChain (str "common-egress-chain"))
    .insertRule false
  return n

/-! ### Common chains -/

/-- `allowICMP`. -/
def allowICMP (chain : Chain) (icmpv6 : Bool) : Render Unit := do
  let data := if icmpv6 then ipprotoICMPv6 else ipprotoICMP
  let proto := if icmpv6 then protoIPv6 else protoIPv4
  let _ ← updateRule
    (newRule chain (str "allow_icmp_" ++ proto)
      (protocolIs .l4proto data ++ [.counter, .verdict .accept []]))
    .addRule false

def ndpSet : NftSet where
  table := filterTableName
  name := str "ndp_set"
  id := 0
  anonymous := false
  constant := false
  interval := false
  counter := true
  keyType := .icmp6Type
  comment := []

/-- Router solicitation and advertisement, neighbour solicitation and advertisement. -/
def ndpElements : List SetElement :=
  [⟨[133], false, []⟩, ⟨[134], false, []⟩, ⟨[135], false, []⟩, ⟨[136], false, []⟩]

/-- `allowNeighborDiscovery`. -/
def allowNeighborDiscovery (chain : Chain) : Render Unit := do
  let ndpSet ← wrapErr (str "failed to update NDP set") (updateSet ndpSet ndpElements)
  let _ ← wrapErr (str "failed to add IPv6 NDP discovery rule") (updateRule
    (newRule chain (str "allow-ipv6-ndp-discovery")
      (protocolIs .nfproto nfprotoIPv6 ++ protocolIs .l4proto ipprotoICMPv6 ++
        [.payload 1 .transportHeader 0 1, .lookup 1 ndpSet.name ndpSet.id, .counter,
          .verdict .accept []]))
    .insertRule false)

/-- The set of a family of prefixes in a common chain. -/
def commonPrefixSet (name : Str) (keyType : SetDatatype) : NftSet where
  table := filterTableName
  name := name
  id := 0
  anonymous := false
  constant := false
  interval := true
  counter := false
  keyType := keyType
  comment := []

/-- One family of `applyCommonPrefixRules`. -/
def applyCommonPrefixFamily (chain : Chain) (set : NftSet) (elements : List SetElement)
    (nfProtocol : UInt8) (offset len : Nat) : Render Unit :=
  when (elements.length > 0) do
    let set ← wrapErr (str "failed to update set") (updateSet set elements)
    let _ ← updateRule
      (newRule chain (str "common rule:" ++ set.name)
        (addressIn nfProtocol offset len set ++ [.counter, .verdict .accept []]))
      .addRule false

/-- `applyCommonPrefixRules`. -/
def applyCommonPrefixRules (chain : Chain) (prefixes : List Str) (name : Str) : Render Unit := do
  let (v4Prefixes, v6Prefixes) ← wrapErr
    (str "failed to get prefix sets of prefixes [[" ++ (str " ").intercalate prefixes ++ str "]]")
    (ofExcept (getPrefixesAsSetInterval prefixes))
  let suffix := getAddressSuffix chain.name
  applyCommonPrefixFamily chain
    (commonPrefixSet (name ++ str "_" ++ protoIPv4 ++ str "_" ++ suffix) .ipAddr) v4Prefixes
    nfprotoIPv4 (if isIngressChain chain.name then ipv4OffSet else ipv4OffSet + ipv4len) ipv4len
  applyCommonPrefixFamily chain
    (commonPrefixSet (name ++ str "_" ++ protoIPv6 ++ str "_" ++ suffix) .ip6Addr) v6Prefixes
    nfprotoIPv6 (if isIngressChain chain.name then ipv6OffSet else ipv6OffSet + ipv6len) ipv6len

/-- `CtStateBitESTABLISHED | CtStateBitRELATED`. -/
def ctStateTracked : BitVec 32 := 0x6

/-- `allowConntracked`. -/
def allowConntracked (bo : ByteOrder) (chain : Chain) : Render Unit := do
  let _ ← updateRule
    (newRule chain allowConntrackRuleName
      [.ct 1 false .state,
        .bitwise 1 1 4 (bo.putUint32 ctStateTracked) (bo.putUint32 zeroRuleMark),
        .cmp .neq 1 [0, 0, 0, 0], .counter, .verdict .accept []])
    .addRule false

/-- ICMPv6 in the common chains: all of it, or neighbour discovery only. -/
def applyCommonICMPv6 (n : NftState) (acceptICMPv6 : Bool) : Render Unit :=
  if acceptICMPv6 then do
    wrapErr (str "failed to allow ICMPv6 in common ingress chain")
      (allowICMP n.commonIngressChain true)
    wrapErr (str "failed to allow ICMPv6 in common egress chain")
      (allowICMP n.commonEgressChain true)
  else do
    wrapErr (str "failed to allow ICMPv6 neighbor discovery in common ingress chain")
      (allowNeighborDiscovery n.commonIngressChain)
    wrapErr (str "failed to allow ICMPv6 neighbor discovery in common egress chain")
      (allowNeighborDiscovery n.commonEgressChain)

/-- `applyCommonChainRules`. -/
def applyCommonChainRules (n : NftState) (cfg : CommonRuleConfig) : Render Unit := do
  applyCommonICMPv6 n cfg.acceptICMPv6
  when cfg.acceptICMP do
    wrapErr (str "failed to allow ICMP in common ingress chain")
      (allowICMP n.commonIngressChain false)
    wrapErr (str "failed to allow ICMP in common egress chain")
      (allowICMP n.commonEgressChain false)
  when (cfg.allowSrcPrefix.length ≠ 0) do
    wrapErr (str "failed to apply common ingress rules")
      (applyCommonPrefixRules n.commonIngressChain cfg.allowSrcPrefix common)
  when (cfg.allowDstPrefix.length ≠ 0) do
    wrapErr (str "failed to apply common egress rules")
      (applyCommonPrefixRules n.commonEgressChain cfg.allowDstPrefix common)
  wrapErr (str "failed to apply common ingress conntrack rules")
    (allowConntracked n.byteOrder n.commonIngressChain)
  wrapErr (str "failed to apply common egress conntrack rules")
    (allowConntracked n.byteOrder n.commonEgressChain)

end Render

end MultiNetPolicy
