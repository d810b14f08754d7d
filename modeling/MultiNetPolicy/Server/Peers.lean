import MultiNetPolicy.Server.Ports

/-!
# Peers chains

The peers chain of a policy rule.  An `ipBlock` peer is an interval set with a rule that sets the
peer mark and returns, preceded by a rule that drops the addresses of `except`; a selector peer is
the set of the addresses of the selected pods; without peers one rule accepts every peer.
-/

namespace MultiNetPolicy

open ByteString

/-- What the rendering of addresses needs to know of an IP version. -/
structure AddressFamily where
  protocol : Str
  keyType : SetDatatype
  payloadLen : Nat
  offset : Nat
  nfProtocol : UInt8

def addressFamily (isV6 : Bool) : AddressFamily :=
  if isV6 then ⟨protoIPv6, .ip6Addr, ipv6len, ipv6OffSet, nfprotoIPv6⟩
  else ⟨protoIPv4, .ipAddr, ipv4len, ipv4OffSet, nfprotoIPv4⟩

/-- The peer's address: the source for ingress, the destination behind it for egress. -/
def peerIn (f : AddressFamily) (chainName : Str) (set : NftSet) : List Expr :=
  addressIn f.nfProtocol (if isIngressChain chainName then f.offset else f.offset + f.payloadLen)
    f.payloadLen set

namespace Render

/-! ### IP blocks -/

def ipBlockSet (table chainName kind : Str) (f : AddressFamily) (peerIndex : Nat)
    (constant : Bool) : NftSet where
  table := table
  name := chainName ++ str "_" ++ kind ++ str "_" ++ f.protocol ++ str "_" ++
    getAddressSuffix chainName ++ str "_" ++ decimal peerIndex
  id := 0
  anonymous := false
  constant := constant
  interval := true
  counter := true
  keyType := f.keyType
  comment := []

/-- The rule that drops the addresses of `except`. -/
def exceptRule (f : AddressFamily) (chainName : Str) (chain : Chain) (policyName cidr : Str)
    (set : NftSet) : Rule :=
  newRule chain
    (str "policy:" ++ policyName ++ str ", name:" ++ chainName ++ str ", cidr:" ++ cidr ++
      str ", deny")
    (peerIn f chainName set ++ [.counter, .verdict .drop []])

/-- A rule that sets the peer mark and returns. -/
def peerRule (bo : ByteOrder) (f : AddressFamily) (chainName : Str) (chain : Chain) (comment : Str)
    (set : NftSet) : Rule :=
  newRule chain comment
    (peerIn f chainName set ++ setMark bo peerRuleMark ++ [.counter, .verdict .ret []])

def ipBlockRule (bo : ByteOrder) (f : AddressFamily) (chainName : Str) (chain : Chain)
    (policyName cidr : Str) (set : NftSet) : Rule :=
  peerRule bo f chainName chain
    (str "policy:" ++ policyName ++ str ", name:" ++ chainName ++ str ", cidr:" ++ cidr ++
      str ", accept") set

/-- `applyPrefixes`. -/
def applyPrefixes (bo : ByteOrder) (chainName : Str) (chain : Chain) (policyName cidr : Str)
    (peerIndex : Nat) (prefixes exceptPrefixes : List SetElement) (isV6 : Bool) : Render Unit :=
  let f := addressFamily isV6
  when (prefixes.length > 0) do
    when (exceptPrefixes.length > 0) do
      let exceptSet ← wrapErr (str "failed to update set") (updateSet
        (ipBlockSet chain.table chainName peerIPBlockExceptPrefix f peerIndex false) exceptPrefixes)
      let _ ← updateRule (exceptRule f chainName chain policyName cidr exceptSet) .addRule false
    let prefixesSet ← wrapErr (str "failed to update set") (updateSet
      (ipBlockSet chain.table chainName peerIPBlockPrefix f peerIndex true) prefixes)
    let _ ← updateRule (ipBlockRule bo f chainName chain policyName cidr prefixesSet) .addRule false

/-- `applyPolicyPeersRulesIPBlock`. -/
def applyPolicyPeersRulesIPBlock (bo : ByteOrder) (chainName : Str) (chain : Chain)
    (policyName : Str) (block : IPBlock) (peerIndex : Nat) : Render Unit := do
  let (v4ExceptPrefixes, v6ExceptPrefixes) ← wrapErr
    (str "failed to get except prefix sets of prefixes [[" ++
      (str " ").intercalate block.except ++ str "]]")
    (ofExcept (getPrefixesAsSetInterval block.except))
  let (v4Prefixes, v6Prefixes) ← wrapErr
    (str "failed to get prefix sets of prefixes [" ++ block.cidr ++ str "]")
    (ofExcept (getPrefixesAsSetInterval [block.cidr]))
  wrapErr (str "failed to apply " ++ protoIPv4 ++ str " prefixes for policy " ++ quote policyName)
    (applyPrefixes bo chainName chain policyName block.cidr peerIndex v4Prefixes v4ExceptPrefixes
      false)
  wrapErr (str "failed to apply " ++ protoIPv6 ++ str " prefixes for policy " ++ quote policyName)
    (applyPrefixes bo chainName chain policyName block.cidr peerIndex v6Prefixes v6ExceptPrefixes
      true)

/-! ### Selectors -/

def selectorText (peer : MultiNetworkPolicyPeer) : Str :=
  match peer.podSelector with
  | some s => s.render
  | none => str "<all>"

/-- The bytes of `net.ParseIP(addr)`, four of them when possible. -/
def ipKey (addr : Str) : Str :=
  match NetIP.parseIP addr with
  | none => []
  | some x =>
    match NetIP.to4 x with
    | some v4 => NetIP.beBytes 4 v4.toNat
    | none => NetIP.beBytes 16 x.toNat

def selectorSet (table chainName : Str) (f : AddressFamily) (peerIndex : Nat)
    (selectorHash : Str) : NftSet where
  table := table
  name := chainName ++ str "_" ++ getAddressSuffix chainName ++ str "_" ++ decimal peerIndex ++
    str "_" ++ f.protocol ++ str "_" ++ selectorHash
  id := 0
  anonymous := false
  constant := false
  interval := false
  counter := false
  keyType := f.keyType
  comment := []

def selectorRule (bo : ByteOrder) (f : AddressFamily) (chainName : Str) (chain : Chain)
    (policyName selectorHash : Str) (set : NftSet) : Rule :=
  peerRule bo f chainName chain
    (str "policy:" ++ policyName ++ str ", name:" ++ chainName ++ str ", selector-for:" ++
      selectorHash ++ str ", protocol:" ++ f.protocol) set

/-- `addIPRule`; the first address decides the family of all of them. -/
def addIPRule (bo : ByteOrder) (chainName : Str) (addrs : List Str) (chain : Chain)
    (policyName : Str) (peer : MultiNetworkPolicyPeer) (peerIndex : Nat) : Render Unit :=
  match addrs with
  | [] => return ()
  | addr :: _ => do
    let f := addressFamily ((NetIP.parseIP addr).bind NetIP.to4).isNone
    let selectorHash := hashString (selectorText peer)
    let set ← updateSet (selectorSet chain.table chainName f peerIndex selectorHash)
      (addrs.map fun a => ⟨ipKey a, false, []⟩)
    let _ ← updateRule (selectorRule bo f chainName chain policyName selectorHash set) .addRule
      false

/-- The loop of `addIPRules`: the IPv4 and the IPv6 addresses. -/
def splitAddrs : List Str → Except Error (List Str × List Str)
  | [] => .ok ([], [])
  | addr :: rest =>
    match NetIP.parseAddr addr with
    | none => .error (.text (str "failed to parse address " ++ quote addr))
    | some a =>
      match splitAddrs rest with
      | .error e => .error e
      | .ok (v4, v6) => .ok (if a.is6 then (v4, addr :: v6) else (addr :: v4, v6))

/-- `addIPRules`. -/
def addIPRules (bo : ByteOrder) (chainName : Str) (addrs : List Str) (chain : Chain)
    (policyName : Str) (peer : MultiNetworkPolicyPeer) (peerIndex : Nat) : Render Unit := do
  let (v4Addrs, v6Addrs) ← ofExcept (splitAddrs addrs)
  wrapErr (str "failed to add IPv4 rules")
    (addIPRule bo chainName v4Addrs chain policyName peer peerIndex)
  wrapErr (str "failed to add IPv6 rules")
    (addIPRule bo chainName v6Addrs chain policyName peer peerIndex)

/-- The keys of a map after `m[ip] = nil`. -/
def insertKey (m : List Str) (ip : Str) : List Str := if ip ∈ m then m else m ++ [ip]

/-- The addresses that one selected pod contributes, with the map they are collected in.  The map
is never emptied, so it is appended anew for every pair of interfaces. -/
def collectPodIPs (deps : PolicyDeps) (chainName : Str) (peerIndex : Nat) (podInfo : PodInfo)
    (policyNetworks : List Str) (sPodinfo : PodInfo) (acc : List Str × List Str) :
    List Str × List Str :=
  (podInfo.interfaces.filter fun i => i.checkPolicyNetwork policyNetworks).foldl (fun acc podIntf =>
    (sPodinfo.interfaces.filter fun i => i.checkPolicyNetwork policyNetworks).foldl
      (fun acc sPodIntf =>
        let m := (podIntf.ips ++ sPodIntf.ips).foldl insertKey acc.2
        (acc.1 ++ deps.mapRange chainName peerIndex acc.1 m, m)) acc) acc

/-- The addresses of the selected pods; a pod without information is skipped. -/
def selectorIPs (deps : PolicyDeps) (chainName : Str) (peerIndex : Nat) (podInfo : PodInfo)
    (policyNetworks : List Str) (nsSelector : Option Selector) (pods : List Pod) : List Str :=
  (pods.foldl (fun acc sPod =>
    match deps.getNamespaceInfo sPod.namespace with
    | none => acc
    | some nsLabels =>
      if nsSelector.any fun s => !s.isMatch nsLabels then acc
      else
        match deps.getPodInfo sPod with
        | none => acc
        | some sPodinfo =>
          collectPodIPs deps chainName peerIndex podInfo policyNetworks sPodinfo acc)
    ([], [])).1

/-- `LabelSelectorAsSelector` of a selector that may be missing. -/
def optionalSelector : Option LabelSelector → Except Error (Option Selector)
  | none => .ok none
  | some s =>
    match s.asSelector with
    | .error e => .error e
    | .ok sel => .ok (some sel)

/-- `applyPolicyPeersRulesSelector`. -/
def applyPolicyPeersRulesSelector (bo : ByteOrder) (deps : PolicyDeps) (chainName : Str)
    (chain : Chain) (policyName : Str) (peer : MultiNetworkPolicyPeer) (podInfo : PodInfo)
    (policyNetworks : List Str) (peerIndex : Nat) : Render Unit := do
  let podSelector ← wrapErr (str "pod selector") (ofExcept (optionalSelector peer.podSelector))
  let pods ← wrapErr (str "pod list failed") (ofExcept (deps.listPods (podSelector.getD [])))
  let nsSelector ← wrapErr (str "namespace selector")
    (ofExcept (optionalSelector peer.namespaceSelector))
  let podIntfIPs := selectorIPs deps chainName peerIndex podInfo policyNetworks nsSelector pods
  wrapErr (str "add selector IP rules")
    (addIPRules bo chainName podIntfIPs chain policyName peer peerIndex)

/-! ### The peers chain -/

/-- One peer of the loop of `applyPolicyPeersRules`. -/
def applyPolicyPeer (bo : ByteOrder) (deps : PolicyDeps) (peersName : Str) (peersChain : Chain)
    (policyName : Str) (podInfo : PodInfo) (policyNetworks : List Str) (index : Nat)
    (peer : MultiNetworkPolicyPeer) : Render Unit :=
  match peer.ipBlock with
  | some block => wrapErr (str "apply IPBlock peer rules at index " ++ decimal index)
      (applyPolicyPeersRulesIPBlock bo peersName peersChain policyName block index)
  | none =>
    if peer.podSelector.isSome || peer.namespaceSelector.isSome then
      wrapErr (str "apply selector peer rules at index " ++ decimal index)
        (applyPolicyPeersRulesSelector bo deps peersName peersChain policyName peer podInfo
          policyNetworks index)
    else fail (.text (str "unknown peer rule at index " ++ decimal index ++
      str ": \x7bPodSelector:nil NamespaceSelector:nil IPBlock:<nil>\x7d"))

/-- The name of the peers chain of a rule. -/
def peersChainName (chainName : Str) (peerIndex : Nat) : Str :=
  nftNameWithSuffix chainName (str "-") (peersChainSuffix ++ str "-" ++ decimal peerIndex)

/-- `applyPolicyPeersRules`. -/
def applyPolicyPeersRules (bo : ByteOrder) (deps : PolicyDeps) (chainName : Str) (chain : Chain)
    (policyName : Str) (peers : List MultiNetworkPolicyPeer) (podInfo : PodInfo)
    (policyNetworks : List Str) (peerIndex : Nat) : Render Unit := do
  let peersName := peersChainName chainName peerIndex
  let peersChain ← wrapErr (str "failed to create peers chain")
    (addChain ⟨chain.table, peersName, none⟩)
  let _ ← updateRule (policyJumpRule chainName chain policyName peersChain) .addRule false
  forEach (applyPolicyPeer bo deps peersName peersChain policyName podInfo policyNetworks) 0 peers
  when (peers.length = 0) do
    let _ ← updateRule (acceptAllRule bo peersName peersChain policyName (str "peers") peerRuleMark)
      .addRule false

end Render

end MultiNetPolicy
