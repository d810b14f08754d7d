import MultiNetPolicy.Equiv.Fresh
import MultiNetPolicy.Equiv.PortRanges
import MultiNetPolicy.Equiv.Selectors

/-!
# What policies mean

What becomes of a packet, in the words of the policies: ports, prefixes, labels and addresses of
pods, without chains, sets and marks.

* `Packet.destination`, `Packet.peer`: what a policy can see of a packet.
* `portsAdmit`, `IPBlock.answer`, `MultiNetworkPolicyPeer.answer`: the parts of a rule.
* `Input.meaning`: how a packet fares with the policies of a run.
* `Input.setMeaning`: the same, with ports, prefixes and addresses as the sets have them that the
  renderer makes of them.
* `CommonRuleConfig.Accepts`: the packets that never reach the policies.
-/

namespace MultiNetPolicy

open ByteString Render

/-! ### What a policy sees of a packet -/

/-- Where the header of an IP version has the address of the peer: the source address for ingress,
the destination address, right behind it, for egress. -/
def Direction.peerOffset (d : Direction) (isV6 : Bool) : Nat :=
  let f := addressFamily isV6
  if d = .ingress then f.offset else f.offset + f.payloadLen

namespace Packet

variable (pkt : Packet) (d : Direction)

/-- The protocol of a packet, when ports can be given for it. -/
def protocol : Option Protocol :=
  portProtocols.find? fun protocol => (getProtocolInfo protocol).2 == pkt.l4proto

/-- The protocol and the port a packet goes to. -/
def destination : Option (Protocol × Nat) :=
  pkt.protocol.bind fun protocol =>
    (slice pkt.transportHeader 2 2).map fun bytes => (protocol, NetIP.beNat bytes)

/-- The address of the other side. -/
def peer : Option NetIP.Addr :=
  if pkt.nfproto = nfprotoIPv4 then
    (slice pkt.networkHeader (d.peerOffset false) ipv4len).map fun bytes =>
      .v4 (BitVec.ofNat 32 (NetIP.beNat bytes))
  else if pkt.nfproto = nfprotoIPv6 then
    (slice pkt.networkHeader (d.peerOffset true) ipv6len).map fun bytes =>
      .v6 (BitVec.ofNat 128 (NetIP.beNat bytes)) []
  else none

variable {pkt d}

theorem length_of_slice {header bytes : Str} {offset len : Nat}
    (h : slice header offset len = some bytes) : bytes.length = len := by
  unfold slice at h
  split at h
  · rename_i hlen
    obtain rfl := Option.some.inj h
    rw [List.length_take, List.length_drop]
    omega
  · cases h

theorem zone_peer {a : NetIP.Addr} (h : pkt.peer d = some a) : a.zone = [] := by
  unfold peer at h
  split at h
  · obtain ⟨bytes, -, rfl⟩ := Option.map_eq_some_iff.1 h
    rfl
  · split at h
    · obtain ⟨bytes, -, rfl⟩ := Option.map_eq_some_iff.1 h
      rfl
    · cases h

/-- The four or sixteen bytes of an address are those of the number they stand for. -/
theorem beBytes_toNat {w n : Nat} {bytes : Str} (hlen : bytes.length = n) (hw : 256 ^ n = 2 ^ w) :
    NetIP.beBytes n (BitVec.ofNat w (NetIP.beNat bytes)).toNat = bytes := by
  have hlt : NetIP.beNat bytes < 2 ^ w := by
    rw [← hw, ← hlen]
    exact NetIP.beNat_lt bytes
  rw [BitVec.toNat_ofNat, Nat.mod_eq_of_lt hlt, ← hlen]
  exact NetIP.beBytes_beNat bytes

theorem asSlice_v4 {bytes : Str} (hlen : bytes.length = 4) :
    (NetIP.Addr.v4 (BitVec.ofNat 32 (NetIP.beNat bytes))).asSlice = bytes :=
  beBytes_toNat hlen (by decide)

theorem asSlice_v6 {bytes : Str} (hlen : bytes.length = 16) :
    (NetIP.Addr.v6 (BitVec.ofNat 128 (NetIP.beNat bytes)) []).asSlice = bytes :=
  beBytes_toNat hlen (by decide)

/-- A test of the IP version and of the bytes of the address is one of the peer. -/
theorem exists_peer_iff (isV6 : Bool) (P : Str → Prop) :
    (∃ a, pkt.peer d = some a ∧ a.is4 = !isV6 ∧ P a.asSlice) ↔
      pkt.nfproto = (addressFamily isV6).nfProtocol ∧
        ∃ bytes, slice pkt.networkHeader (d.peerOffset isV6) (addressFamily isV6).payloadLen =
          some bytes ∧ P bytes := by
  -- a packet has one family, so the address is read at one place
  have hne : nfprotoIPv6 ≠ nfprotoIPv4 := by decide
  cases isV6 with
  | false =>
    show _ ↔ pkt.nfproto = nfprotoIPv4 ∧
      ∃ bytes, slice pkt.networkHeader (d.peerOffset false) ipv4len = some bytes ∧ P bytes
    constructor
    · rintro ⟨a, ha, h4, hP⟩
      unfold peer at ha
      split at ha
      · rename_i hproto
        obtain ⟨bytes, hbytes, rfl⟩ := Option.map_eq_some_iff.1 ha
        refine ⟨hproto, bytes, hbytes, ?_⟩
        rwa [asSlice_v4 (length_of_slice hbytes)] at hP
      · -- an address of the other version
        split at ha
        · obtain ⟨bytes, -, rfl⟩ := Option.map_eq_some_iff.1 ha
          cases h4
        · cases ha
    · rintro ⟨hproto, bytes, hbytes, hP⟩
      refine ⟨.v4 (BitVec.ofNat 32 (NetIP.beNat bytes)), ?_, rfl, ?_⟩
      · rw [peer, if_pos hproto, hbytes, Option.map_some]
      · rwa [asSlice_v4 (length_of_slice hbytes)]
  | true =>
    show _ ↔ pkt.nfproto = nfprotoIPv6 ∧
      ∃ bytes, slice pkt.networkHeader (d.peerOffset true) ipv6len = some bytes ∧ P bytes
    constructor
    · rintro ⟨a, ha, h4, hP⟩
      unfold peer at ha
      split at ha
      · obtain ⟨bytes, -, rfl⟩ := Option.map_eq_some_iff.1 ha
        cases h4
      · split at ha
        · rename_i hproto
          obtain ⟨bytes, hbytes, rfl⟩ := Option.map_eq_some_iff.1 ha
          refine ⟨hproto, bytes, hbytes, ?_⟩
          rwa [asSlice_v6 (length_of_slice hbytes)] at hP
        · cases ha
    · rintro ⟨hproto, bytes, hbytes, hP⟩
      refine ⟨.v6 (BitVec.ofNat 128 (NetIP.beNat bytes)) [], ?_, rfl, ?_⟩
      · rw [peer, hproto, if_neg hne, if_pos rfl, hbytes, Option.map_some]
      · rwa [asSlice_v6 (length_of_slice hbytes)]

/-- A packet with a destination port goes there. -/
theorem goesTo_of_destination {protocol : Protocol} {q : Nat}
    (h : pkt.destination = some (protocol, q)) :
    protocol ∈ portProtocols ∧ pkt.GoesTo protocol q ∧ q ≤ 65535 := by
  obtain ⟨protocol', hprotocol, hslice⟩ := Option.bind_eq_some_iff.1 h
  obtain ⟨bytes, hbytes, heq⟩ := Option.map_eq_some_iff.1 hslice
  obtain ⟨rfl, rfl⟩ := Prod.mk.inj heq
  have hlen : bytes.length = 2 := length_of_slice hbytes
  have hinfo := List.find?_some hprotocol
  have hlt := NetIP.beNat_lt bytes
  rw [beq_iff_eq] at hinfo
  rw [hlen] at hlt
  refine ⟨List.mem_of_find?_eq_some hprotocol, ⟨hinfo.symm, ?_⟩, by omega⟩
  rw [hbytes, ← hlen, NetIP.beBytes_beNat]

/-- The test of a ports rule is one of the destination. -/
theorem exists_destination_iff {protocol : Protocol} (hp : protocol ∈ portProtocols)
    (P : Str → Prop) :
    (∃ q, pkt.destination = some (protocol, q) ∧ P (NetIP.beBytes 2 q)) ↔
      pkt.l4proto = (getProtocolInfo protocol).2 ∧
        ∃ bytes, slice pkt.transportHeader 2 2 = some bytes ∧ P bytes := by
  constructor
  · rintro ⟨q, hq, hP⟩
    obtain ⟨-, hgoes, -⟩ := goesTo_of_destination hq
    exact ⟨hgoes.1, _, hgoes.2, hP⟩
  · rintro ⟨hproto, bytes, hbytes, hP⟩
    have hfind : ∀ protocol ∈ portProtocols, portProtocols.find?
        (fun x => (getProtocolInfo x).2 == (getProtocolInfo protocol).2) = some protocol := by
      decide
    refine ⟨NetIP.beNat bytes, ?_, ?_⟩
    · rw [destination, Packet.protocol, hproto, hfind protocol hp, hbytes]
      rfl
    · rwa [← length_of_slice hbytes, NetIP.beBytes_beNat]

end Packet

/-! ### Ports -/

/-- A packet goes where an entry of `ports` says.  An entry without protocol and port is all that
speaks of packets that have no port. -/
def MultiNetworkPolicyPort.Admits (entry : MultiNetworkPolicyPort) :
    Option (Protocol × Nat) → Prop
  | none => entry.IsWildcard
  | some (protocol, q) => entry.Matches protocol q

instance (entry : MultiNetworkPolicyPort) (protocol : Protocol) (q : Nat) :
    Decidable (entry.Matches protocol q) := by
  unfold MultiNetworkPolicyPort.Matches
  split <;> infer_instance

instance (entry : MultiNetworkPolicyPort) (destination : Option (Protocol × Nat)) :
    Decidable (entry.Admits destination) := by
  unfold MultiNetworkPolicyPort.Admits
  split <;> infer_instance

/-- The ports of a rule admit a packet; a rule without ports admits all. -/
def portsAdmit (ports : List MultiNetworkPolicyPort) (destination : Option (Protocol × Nat)) :
    Prop :=
  ports = [] ∨ ∃ entry ∈ ports, entry.Admits destination

instance (ports : List MultiNetworkPolicyPort) (destination : Option (Protocol × Nat)) :
    Decidable (portsAdmit ports destination) := inferInstanceAs (Decidable (_ ∨ _))

/-! ### Peers -/

/-- An address is in one of some prefixes. -/
def inPrefixes (texts : List Str) (a : NetIP.Addr) : Bool :=
  texts.any fun text => (NetIP.parsePrefix text).any fun p => p.contains a

/-- An address is in one of the prefixes. -/
theorem inPrefixes_iff {texts : List Str} {a : NetIP.Addr} :
    inPrefixes texts a = true ↔
      ∃ text ∈ texts, ∃ p, NetIP.parsePrefix text = some p ∧ p.contains a = true := by
  simp only [inPrefixes, List.any_eq_true, Option.any_eq_true]

/-- What an IP block says about an address: nothing, yes or no.  It does not speak of addresses of
the other version, and `except` counts outside of `cidr` too. -/
def IPBlock.answer (block : IPBlock) (a : NetIP.Addr) : Option Bool :=
  if (NetIP.parsePrefix block.cidr).any fun p => p.is4 == a.is4 then
    if inPrefixes block.except a then some false
    else if inPrefixes [block.cidr] a then some true
    else none
  else none

namespace PolicyDeps

/-- What is known of the pods of a listing that are in a selected namespace. -/
def selectedInfos (deps : PolicyDeps) (nsSelector : Option Selector) (pods : List Pod) :
    List PodInfo :=
  pods.filterMap fun sPod =>
    if (deps.getNamespaceInfo sPod.namespace).any fun labels => nsSelector.all (·.isMatch labels)
    then deps.getPodInfo sPod else none

/-- The addresses a selector stands for: those of the selected pods on the networks of the policy,
and the pod's own ones when there is such a pod. -/
def selectedAddresses (deps : PolicyDeps) (podInfo : PodInfo) (networks : List Str)
    (peer : MultiNetworkPolicyPeer) : List Str :=
  match optionalSelector peer.podSelector, optionalSelector peer.namespaceSelector with
  | .ok podSelector, .ok nsSelector =>
    match deps.listPods (podSelector.getD []) with
    | .ok pods =>
      ((deps.selectedInfos nsSelector pods).filter (·.checkPolicyNetwork networks)).flatMap
        fun info => podInfo.addressesOn networks ++ info.addressesOn networks
    | .error _ => []
  | _, _ => []

end PolicyDeps

/-- What a peer says about an address. -/
def MultiNetworkPolicyPeer.answer (deps : PolicyDeps) (podInfo : PodInfo) (networks : List Str)
    (a : NetIP.Addr) (peer : MultiNetworkPolicyPeer) : Option Bool :=
  match peer.ipBlock with
  | some block => block.answer a
  | none =>
    if (deps.selectedAddresses podInfo networks peer).any fun ip => NetIP.parseAddr ip == some a
    then some true else none

/-! ### Policies -/

section Meaning

variable (i : Input) (pkt : Packet) (d : Direction)

/-- How a packet fares with a rule; the first peer that speaks of its address decides. -/
def PolicyRule.meaning (networks : List Str) (rule : PolicyRule) : RuleView where
  ports := decide (portsAdmit rule.ports pkt.destination)
  peers :=
    if rule.peers = [] then some true
    else (pkt.peer d).bind fun a =>
      rule.peers.findSome? (MultiNetworkPolicyPeer.answer i.deps i.sortedInfo networks a)

/-- How a packet fares with a policy. -/
def InternalPolicy.meaning (p : InternalPolicy) : PolicyView where
  taken := (p.interfaces i.sortedInfo).any (pkt.isOn d)
  rules := (p.policy.rulesIn d).map (PolicyRule.meaning i pkt d p.policyNetworks)

/-- How a packet fares with the policies of a run. -/
def Input.meaning : List PolicyView := (i.policiesIn d).map (InternalPolicy.meaning i pkt d)

end Meaning

/-! ### What becomes of rules in sets

The functions of the renderer make elements of ports, prefixes and addresses.  A packet is looked up
among these elements, which are not always what the policy lists. -/

/-- An address is in the interval set of some prefixes. -/
def inPrefixSet (texts : List Str) (a : NetIP.Addr) : Bool :=
  (getPrefixesAsSetInterval texts).toOption.any fun els =>
    setContains true (if a.is4 then els.1 else els.2) a.asSlice

/-- What the kernel finds in a set of prefixes. -/
theorem inPrefixSet_eq {texts : List Str} {els : List SetElement × List SetElement}
    (h : getPrefixesAsSetInterval texts = .ok els) (a : NetIP.Addr) :
    inPrefixSet texts a = setContains true (if a.is4 then els.1 else els.2) a.asSlice := by
  rw [inPrefixSet, h]
  rfl

/-- A packet goes to a port that the sets of a rule have; without sets it may go anywhere. -/
def portSetsAdmit (ports : List MultiNetworkPolicyPort) (destination : Option (Protocol × Nat)) :
    Bool :=
  (collectPorts ports).toOption.any fun g =>
    portProtocols.all (fun protocol => (g.of protocol).isEmpty) ||
      destination.any fun x => setContains true (g.of x.1) (NetIP.beBytes 2 x.2)

/-- What the rules of an IP block say about an address. -/
def IPBlock.setAnswer (block : IPBlock) (a : NetIP.Addr) : Option Bool :=
  if (NetIP.parsePrefix block.cidr).any fun p => p.is4 == a.is4 then
    if inPrefixSet block.except a then some false
    else if inPrefixes [block.cidr] a then some true
    else none
  else none

/-- An address is in the set of some addresses.  The first one tells which IP version the rule is
for. -/
def inAddressSet (addrs : List Str) (a : NetIP.Addr) : Bool :=
  (addrs.head?.any fun addr => a.is4 == !isV6Key addr) && addrs.any fun ip => ipKey ip == a.asSlice

/-- What the rules of a peer say about an address. -/
def MultiNetworkPolicyPeer.setAnswer (deps : PolicyDeps) (podInfo : PodInfo) (networks : List Str)
    (chainName : Str) (a : NetIP.Addr) (peer : MultiNetworkPolicyPeer) (peerIndex : Nat) :
    Option Bool :=
  match peer.ipBlock with
  | some block => block.setAnswer a
  | none =>
    let addrs := (selectorAddresses deps chainName peerIndex podInfo networks peer).toOption.getD []
    if inAddressSet (addrs.filter isIPv4Text) a ||
        inAddressSet (addrs.filter fun ip => !isIPv4Text ip) a then some true
    else none

section SetMeaning

variable (i : Input) (pkt : Packet) (d : Direction)

/-- How a packet fares with the chains of a rule. -/
def PolicyRule.setMeaning (p : InternalPolicy) (rule : PolicyRule) (index : Nat) : RuleView where
  ports := portSetsAdmit rule.ports pkt.destination
  peers :=
    if rule.peers = [] then some true
    else (pkt.peer d).bind fun a =>
      rule.peers.zipIdx.findSome? fun x => x.1.setAnswer i.deps i.sortedInfo p.policyNetworks
        (peersChainName (policyChainFullName d.entry p.policy) index) a x.2

/-- How a packet fares with the chains of a policy. -/
def InternalPolicy.setMeaning (p : InternalPolicy) : PolicyView where
  taken := (p.interfaces i.sortedInfo).any (pkt.isOn d)
  rules := (p.policy.rulesIn d).zipIdx.map fun x => x.1.setMeaning i pkt d p x.2

/-- How a packet fares with the chains of a run. -/
def Input.setMeaning : List PolicyView := (i.policiesIn d).map (InternalPolicy.setMeaning i pkt d)

end SetMeaning

/-! ### Common rules -/

/-- The prefixes that are allowed in a direction. -/
def CommonRuleConfig.prefixesIn (cfg : CommonRuleConfig) : Direction → List Str
  | .ingress => cfg.allowSrcPrefix
  | .egress => cfg.allowDstPrefix

/-- A packet belongs to the neighbour discovery of IPv6. -/
def Packet.IsNeighborDiscovery (pkt : Packet) : Prop :=
  pkt.nfproto = nfprotoIPv6 ∧ pkt.l4proto = ipprotoICMPv6 ∧
    ∃ type ∈ [133, 134, 135, 136], slice pkt.transportHeader 0 1 = some [type]

instance (pkt : Packet) : Decidable pkt.IsNeighborDiscovery :=
  inferInstanceAs (Decidable (_ ∧ _ ∧ _))

/-- The packets that are let through before the policies are asked. -/
def CommonRuleConfig.Accepts (cfg : CommonRuleConfig) (d : Direction) (pkt : Packet) : Prop :=
  pkt.ctState &&& ctStateTracked ≠ 0 ∨
    (cfg.acceptICMP = true ∧ pkt.l4proto = ipprotoICMP) ∨
    (if cfg.acceptICMPv6 = true then pkt.l4proto = ipprotoICMPv6 else pkt.IsNeighborDiscovery) ∨
    ∃ a, pkt.peer d = some a ∧ inPrefixes (cfg.prefixesIn d) a = true

instance (cfg : CommonRuleConfig) (d : Direction) (pkt : Packet) : Decidable (cfg.Accepts d pkt) :=
  inferInstanceAs (Decidable (_ ∨ _ ∨ _ ∨ _))

/-- The same, with the prefixes as their sets have them. -/
def CommonRuleConfig.SetsAccept (cfg : CommonRuleConfig) (d : Direction) (pkt : Packet) : Prop :=
  pkt.ctState &&& ctStateTracked ≠ 0 ∨
    (cfg.acceptICMP = true ∧ pkt.l4proto = ipprotoICMP) ∨
    (if cfg.acceptICMPv6 = true then pkt.l4proto = ipprotoICMPv6 else pkt.IsNeighborDiscovery) ∨
    ∃ a, pkt.peer d = some a ∧ inPrefixSet (cfg.prefixesIn d) a = true

instance (cfg : CommonRuleConfig) (d : Direction) (pkt : Packet) :
    Decidable (cfg.SetsAccept d pkt) :=
  inferInstanceAs (Decidable (_ ∨ _ ∨ _ ∨ _))

end MultiNetPolicy
