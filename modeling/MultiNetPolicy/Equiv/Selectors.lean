import MultiNetPolicy.Equiv.Order

/-!
# The addresses of selector peers

A selector peer stands for the addresses that the selected pods and the pod itself have on the
policy's networks (`selector_resolves_to_selected`).  `addIPRules` writes them into a set for each
IP version.

* `KeyOf`: the keys that denote an address.
* `WellTypedSets`: every set holds keys of its own version, each address in one of the sets.
* `selector_sets_well_typed_iff`: this is so exactly when no address has a zone, and IPv4-mapped
  addresses do not stand beside others.  One parser decides which list an address goes to, another
  one its key and the version of the set.
-/

namespace MultiNetPolicy

open ByteString Render

/-! ### The selected addresses -/

/-- A pod is selected, and this is what is known of it. -/
structure PolicyDeps.Selects (deps : PolicyDeps) (podSelector nsSelector : Option Selector)
    (sPod : Pod) (sPodinfo : PodInfo) : Prop where
  pod : ∀ s ∈ podSelector, s.isMatch sPod.labels = true
  ns : ∃ nsLabels, deps.getNamespaceInfo sPod.namespace = some nsLabels ∧
    ∀ s ∈ nsSelector, s.isMatch nsLabels = true
  info : deps.getPodInfo sPod = some sPodinfo

/-- The addresses of a pod's interfaces on some networks. -/
def PodInfo.addressesOn (info : PodInfo) (policyNetworks : List Str) : List Str :=
  (info.interfaces.filter fun i => i.checkPolicyNetwork policyNetworks).flatMap InterfaceInfo.ips

/-- A pod has an interface in one of the networks. -/
theorem PodInfo.checkPolicyNetwork_eq_true {info : PodInfo} {policyNetworks : List Str} :
    info.checkPolicyNetwork policyNetworks = true ↔
      ∃ i, i ∈ info.interfaces.filter fun i => i.checkPolicyNetwork policyNetworks := by
  rw [PodInfo.checkPolicyNetwork, List.any_eq_true]
  simp only [List.mem_filter]

/-- A selected pod contributes its addresses and those of the pod, when both are on the networks. -/
theorem PodInfo.contributes_iff {podInfo sPodinfo : PodInfo} {policyNetworks : List Str}
    {ip : Str} :
    podInfo.contributes policyNetworks sPodinfo ip ↔
      podInfo.checkPolicyNetwork policyNetworks = true ∧
      sPodinfo.checkPolicyNetwork policyNetworks = true ∧
      (ip ∈ podInfo.addressesOn policyNetworks ∨ ip ∈ sPodinfo.addressesOn policyNetworks) := by
  unfold PodInfo.contributes PodInfo.addressesOn
  simp only [PodInfo.checkPolicyNetwork_eq_true, List.mem_append, List.mem_flatMap]
  constructor
  · rintro ⟨i, hi, j, hj, hip | hip⟩
    · exact ⟨⟨i, hi⟩, ⟨j, hj⟩, .inl ⟨i, hi, hip⟩⟩
    · exact ⟨⟨i, hi⟩, ⟨j, hj⟩, .inr ⟨j, hj, hip⟩⟩
  · rintro ⟨⟨i, hi⟩, ⟨j, hj⟩, ⟨i', hi', hip⟩ | ⟨j', hj', hip⟩⟩
    · exact ⟨i', hi', j, hj, .inl hip⟩
    · exact ⟨i, hi, j', hj', .inr hip⟩

/-- Which pods contribute an address. -/
theorem PolicyDeps.contributes_iff {deps : PolicyDeps} {podSelector nsSelector : Option Selector}
    {podInfo : PodInfo} {policyNetworks : List Str} {pods : List Pod} {ip : Str} :
    (∃ sPod ∈ pods.filter fun p => (podSelector.getD []).isMatch p.labels,
      deps.contributes podInfo policyNetworks nsSelector sPod ip) ↔
      ∃ sPod ∈ pods, ∃ sPodinfo, deps.Selects podSelector nsSelector sPod sPodinfo ∧
        podInfo.contributes policyNetworks sPodinfo ip := by
  have hpod : ∀ labels : Labels, (podSelector.getD []).isMatch labels = true ↔
      ∀ s ∈ podSelector, s.isMatch labels = true := by
    intro labels
    cases podSelector with
    | none => simp [Selector.isMatch]
    | some s => simp
  have hns : ∀ labels : Labels, (nsSelector.any fun s => !s.isMatch labels) = false ↔
      ∀ s ∈ nsSelector, s.isMatch labels = true := by
    intro labels
    cases nsSelector with
    | none => simp
    | some s => simp
  simp only [List.mem_filter, hpod, PolicyDeps.contributes, hns]
  constructor
  · rintro ⟨sPod, ⟨hmem, hsel⟩, nsLabels, hlabels, hns, sPodinfo, hinfo, hip⟩
    exact ⟨sPod, hmem, sPodinfo, ⟨hsel, ⟨nsLabels, hlabels, hns⟩, hinfo⟩, hip⟩
  · rintro ⟨sPod, hmem, sPodinfo, ⟨hsel, ⟨nsLabels, hlabels, hns⟩, hinfo⟩, hip⟩
    exact ⟨sPod, ⟨hmem, hsel⟩, nsLabels, hlabels, hns, sPodinfo, hinfo, hip⟩

/-- **Selector peers resolve to exactly the selected addresses.**  `ListPods` returns the pods of
the cluster whose labels match. -/
theorem selector_resolves_to_selected (bo : ByteOrder) (deps : PolicyDeps) (chainName : Str)
    (chain : Chain) (policyName : Str) (peer : MultiNetworkPolicyPeer) (podInfo : PodInfo)
    (policyNetworks : List Str) (peerIndex : Nat) {pods : List Pod}
    (hlist : ∀ s, deps.listPods s = .ok (pods.filter fun p => s.isMatch p.labels))
    {podSelector nsSelector : Option Selector}
    (hpod : optionalSelector peer.podSelector = .ok podSelector)
    (hns : optionalSelector peer.namespaceSelector = .ok nsSelector) :
    ∃ ips, applyPolicyPeersRulesSelector bo deps chainName chain policyName peer podInfo
        policyNetworks peerIndex =
          Render.wrapErr (str "add selector IP rules")
            (addIPRules bo chainName ips chain policyName peer peerIndex) ∧
      (podInfo.checkPolicyNetwork policyNetworks = false ∨
        (∀ sPod ∈ pods, ∀ sPodinfo, deps.Selects podSelector nsSelector sPod sPodinfo →
          sPodinfo.checkPolicyNetwork policyNetworks = false) → ips = []) ∧
      (podInfo.checkPolicyNetwork policyNetworks = true →
        (∃ sPod ∈ pods, ∃ sPodinfo, deps.Selects podSelector nsSelector sPod sPodinfo ∧
          sPodinfo.checkPolicyNetwork policyNetworks = true) →
        ∀ ip, ip ∈ ips ↔ ip ∈ podInfo.addressesOn policyNetworks ∨
          ∃ sPod ∈ pods, ∃ sPodinfo, deps.Selects podSelector nsSelector sPod sPodinfo ∧
            ip ∈ sPodinfo.addressesOn policyNetworks) := by
  have hmem : ∀ ip, ip ∈ selectorIPs deps chainName peerIndex podInfo policyNetworks nsSelector
      (pods.filter fun p => (podSelector.getD []).isMatch p.labels) ↔
      ∃ sPod ∈ pods, ∃ sPodinfo, deps.Selects podSelector nsSelector sPod sPodinfo ∧
        podInfo.checkPolicyNetwork policyNetworks = true ∧
        sPodinfo.checkPolicyNetwork policyNetworks = true ∧
        (ip ∈ podInfo.addressesOn policyNetworks ∨ ip ∈ sPodinfo.addressesOn policyNetworks) := by
    intro ip
    rw [mem_selectorIPs, PolicyDeps.contributes_iff]
    simp only [PodInfo.contributes_iff]
  refine ⟨selectorIPs deps chainName peerIndex podInfo policyNetworks nsSelector
    (pods.filter fun p => (podSelector.getD []).isMatch p.labels), ?_, ?_, ?_⟩
  · unfold applyPolicyPeersRulesSelector
    rw [hpod, hns]
    change Render.wrapErr _ (ofExcept (deps.listPods (podSelector.getD []))) >>= _ = _
    rw [hlist]
    rfl
  · intro hnone
    rw [List.eq_nil_iff_forall_not_mem]
    intro ip hip
    obtain ⟨sPod, hsPod, sPodinfo, hsel, hcheck, hcheck', -⟩ := (hmem ip).1 hip
    rcases hnone with hnone | hnone
    · rw [hcheck] at hnone
      cases hnone
    · rw [hnone sPod hsPod sPodinfo hsel] at hcheck'
      cases hcheck'
  · intro hcheck ⟨sPod, hsPod, sPodinfo, hsel, hcheck'⟩ ip
    rw [hmem ip]
    constructor
    · rintro ⟨tPod, htPod, tPodinfo, hsel', -, -, hip | hip⟩
      · exact .inl hip
      · exact .inr ⟨tPod, htPod, tPodinfo, hsel', hip⟩
    · rintro (hip | ⟨tPod, htPod, tPodinfo, hsel', hip⟩)
      · exact ⟨sPod, hsPod, sPodinfo, hsel, hcheck, hcheck', .inl hip⟩
      · refine ⟨tPod, htPod, tPodinfo, hsel', hcheck, ?_, .inr hip⟩
        -- a pod with an address on the networks has an interface on them
        obtain ⟨i, hi, -⟩ := List.mem_flatMap.1 hip
        exact PodInfo.checkPolicyNetwork_eq_true.2 ⟨i, hi⟩

/-- A cluster with a labelled pod and another one. -/
def labelledPods : PolicyDeps :=
  { twoPods false with
    listPods := fun s => .ok ([⟨str "default", str "a", [(str "app", str "web")]⟩,
      ⟨str "default", str "b", []⟩].filter fun p : Pod => s.isMatch p.labels) }

/-- The addresses of the labelled pod, and no others. -/
theorem label_selects_one_pod : ∃ ips,
    applyPolicyPeersRulesSelector .little labelledPods (str "multi-ingress")
        ⟨filterTableName, str "multi-ingress", none⟩ (str "p")
        ⟨some ⟨[(str "app", str "web")], []⟩, none, none⟩ ⟨[netInterface (str "net1")]⟩
        [str "default/net1"] 0 =
      Render.wrapErr (str "add selector IP rules") (addIPRules .little (str "multi-ingress") ips
        ⟨filterTableName, str "multi-ingress", none⟩ (str "p")
        ⟨some ⟨[(str "app", str "web")], []⟩, none, none⟩ 0) ∧
    str "10.0.0.1" ∈ ips ∧ str "fd00::1" ∉ ips := by
  obtain ⟨ips, heq, -, hips⟩ := @selector_resolves_to_selected .little labelledPods
    (str "multi-ingress") ⟨filterTableName, str "multi-ingress", none⟩ (str "p")
    ⟨some ⟨[(str "app", str "web")], []⟩, none, none⟩ ⟨[netInterface (str "net1")]⟩
    [str "default/net1"] 0 [⟨str "default", str "a", [(str "app", str "web")]⟩,
      ⟨str "default", str "b", []⟩] (fun _ => rfl) (some [⟨str "app", .isIn, [str "web"]⟩]) none
    (by rfl) rfl
  -- the first pod has the label
  have hselects : labelledPods.Selects (some [⟨str "app", .isIn, [str "web"]⟩]) none
      ⟨str "default", str "a", [(str "app", str "web")]⟩
      ⟨[{ netInterface (str "net1") with ips := [str "10.0.0.1", str "10.0.0.2"] }]⟩ := by
    refine ⟨fun s hs => ?_, ⟨[], rfl, nofun⟩, rfl⟩
    obtain rfl := Option.some.inj hs
    decide
  have hips := hips (by decide) ⟨_, List.mem_cons_self .., _, hselects, by decide⟩
  refine ⟨ips, heq, (hips _).2 (.inr ⟨_, List.mem_cons_self .., _, hselects, by decide⟩),
    fun h => ?_⟩
  rcases (hips _).1 h with h | ⟨sPod, hsPod, info, hsel, h⟩
  · revert h
    decide
  · rcases List.mem_cons.1 hsPod with rfl | hsPod
    · obtain rfl := Option.some.inj (hsel.info.symm.trans hselects.info)
      revert h
      decide
    · obtain rfl := List.mem_singleton.1 hsPod
      -- the second one lacks it
      have hlabels := hsel.pod _ rfl
      revert hlabels
      decide

/-! ### Keys and addresses -/

/-- The key denotes the address: its four or sixteen bytes, four of them for an IPv4-mapped address
too.  No key denotes an address with a zone. -/
def KeyOf (ip key : Str) : Prop :=
  match NetIP.parseAddr ip with
  | some (.v4 x) => key = NetIP.beBytes 4 x.toNat
  | some (.v6 x zone) => zone = [] ∧
      (key = NetIP.beBytes 16 x.toNat ∨ ∃ y ∈ NetIP.to4 x, key = NetIP.beBytes 4 y.toNat)
  | none => False

/-- The text is of an address with a zone. -/
def hasZone (ip : Str) : Bool := (NetIP.parseAddr ip).any fun a => !a.zone.isEmpty

/-- The text is of an IPv4-mapped IPv6 address. -/
def isMapped (ip : Str) : Bool :=
  match NetIP.parseAddr ip with
  | some (.v6 x _) => (NetIP.to4 x).isSome
  | _ => false

/-- An IPv4-mapped address stands for an IPv4 address. -/
theorem to4_mapped (x : BitVec 32) :
    NetIP.to4 (BitVec.ofNat 128 (NetIP.mappedHigh * 2 ^ 32 + x.toNat)) = some x := by
  have hlt := x.isLt
  have hnat : (BitVec.ofNat 128 (NetIP.mappedHigh * 2 ^ 32 + x.toNat)).toNat =
      NetIP.mappedHigh * 2 ^ 32 + x.toNat := by
    rw [BitVec.toNat_ofNat]
    unfold NetIP.mappedHigh
    omega
  have hhigh : (NetIP.mappedHigh * 2 ^ 32 + x.toNat) / 2 ^ 32 = NetIP.mappedHigh := by
    omega
  have hlow : BitVec.ofNat 32 (NetIP.mappedHigh * 2 ^ 32 + x.toNat) = x := by
    apply BitVec.eq_of_toNat_eq
    rw [BitVec.toNat_ofNat]
    omega
  rw [NetIP.to4, hnat, if_pos hhigh, hlow]

/-- What `addIPRule` makes of an address: no bytes with a zone, else its bytes in the version it is
taken for. -/
theorem ipKey_spec {ip : Str} (hip : (NetIP.parseAddr ip).isSome = true) :
    (hasZone ip = true → ipKey ip = []) ∧
      (hasZone ip = false → KeyOf ip (ipKey ip) ∧
        (ipKey ip).length = (addressFamily (isV6Key ip)).payloadLen ∧
        isV6Key ip = !(isIPv4Text ip || isMapped ip)) := by
  obtain ⟨a, ha⟩ := Option.isSome_iff_exists.1 hip
  have hzone : hasZone ip = !a.zone.isEmpty := by
    rw [hasZone, ha]
    rfl
  cases a with
  | v4 x =>
    have hparse : NetIP.parseIP ip =
        some (BitVec.ofNat 128 (NetIP.mappedHigh * 2 ^ 32 + x.toNat)) := by
      rw [NetIP.parseIP, ha]
    have hkey : ipKey ip = NetIP.beBytes 4 x.toNat := by
      simp only [ipKey, hparse, to4_mapped]
    have hv6 : isV6Key ip = false := by
      simp only [isV6Key, hparse, Option.bind_some, to4_mapped]
      rfl
    refine ⟨fun h => ?_, fun _ => ⟨?_, ?_, ?_⟩⟩
    · rw [hzone] at h
      cases h
    · rw [KeyOf, ha, hkey]
    · rw [hkey, hv6]
      exact NetIP.beBytes_length ..
    · rw [hv6, isIPv4Text, ha]
      rfl
  | v6 x zone =>
    -- `net.ParseIP` refuses zones, and the key stays empty
    cases zone with
    | cons b zone =>
      refine ⟨fun _ => ?_, fun h => ?_⟩
      · rw [ipKey, NetIP.parseIP, ha]
      · rw [hzone] at h
        cases h
    | nil =>
      have hparse : NetIP.parseIP ip = some x := by
        rw [NetIP.parseIP, ha]
      have hv6 : isV6Key ip = (NetIP.to4 x).isNone := by
        rw [isV6Key, hparse, Option.bind_some]
      have hmapped : (isIPv4Text ip || isMapped ip) = (NetIP.to4 x).isSome := by
        rw [isIPv4Text, isMapped, ha]
        exact Bool.false_or _
      refine ⟨fun h => ?_, fun _ => ?_⟩
      · rw [hzone] at h
        cases h
      · cases hx : NetIP.to4 x with
        | none =>
          have hkey : ipKey ip = NetIP.beBytes 16 x.toNat := by
            simp only [ipKey, hparse, hx]
          rw [KeyOf, ha, hv6, hmapped, hx, hkey]
          exact ⟨⟨rfl, .inl rfl⟩, NetIP.beBytes_length .., rfl⟩
        | some y =>
          have hkey : ipKey ip = NetIP.beBytes 4 y.toNat := by
            simp only [ipKey, hparse, hx]
          rw [KeyOf, ha, hv6, hmapped, hx, hkey]
          exact ⟨⟨rfl, .inr ⟨y, hx, rfl⟩⟩, NetIP.beBytes_length .., rfl⟩

/-- The length of a key tells the version, except for IPv4-mapped addresses. -/
theorem KeyOf.length {ip key : Str} (h : KeyOf ip key) (hmapped : isMapped ip = false) :
    key.length = (addressFamily (!isIPv4Text ip)).payloadLen := by
  unfold KeyOf at h
  unfold isMapped at hmapped
  unfold isIPv4Text
  cases ha : NetIP.parseAddr ip with
  | none =>
    rw [ha] at h
    exact h.elim
  | some a =>
    rw [ha] at h hmapped
    cases a with
    | v4 x =>
      have h : key = NetIP.beBytes 4 x.toNat := h
      rw [h]
      exact NetIP.beBytes_length ..
    | v6 x zone =>
      have hnone : NetIP.to4 x = none := by
        rw [← Option.not_isSome_iff_eq_none]
        exact (Bool.eq_false_iff.1 hmapped)
      obtain ⟨-, h | ⟨y, hy, -⟩⟩ := h
      · rw [h]
        exact NetIP.beBytes_length ..
      · rw [hnone] at hy
        cases hy

/-! ### The calls of `addIPRules` -/

section Calls

variable {bo : ByteOrder} {chainName : Str} {chain : Chain} {policyName : Str}
  {peer : MultiNetworkPolicyPeer} {peerIndex : Nat}

/-- The set of a version, under the ID that the connection gave it. -/
def selectorSetOf (table chainName : Str) (peer : MultiNetworkPolicyPeer) (peerIndex : Nat)
    (isV6 : Bool) (id : Nat) : NftSet :=
  (selectorSet table chainName (addressFamily isV6) peerIndex
    (hashString (selectorText peer))).short id

theorem selectorSetOf_table (table chainName : Str) (peer : MultiNetworkPolicyPeer)
    (peerIndex : Nat) (isV6 : Bool) (id : Nat) :
    (selectorSetOf table chainName peer peerIndex isV6 id).table = table := by
  simp only [selectorSetOf, NftSet.short, selectorSet]

/-- The calls of `addIPRule`: none, or one set with its rule. -/
inductive AddressCalls (bo : ByteOrder) (chainName : Str) (chain : Chain) (policyName : Str)
    (peer : MultiNetworkPolicyPeer) (peerIndex : Nat) : List Str → List Event → Prop where
  | none : AddressCalls bo chainName chain policyName peer peerIndex [] []
  | set (addr : Str) (rest : List Str) (id : Nat) (fresh isNew : Bool) :
    AddressCalls bo chainName chain policyName peer peerIndex (addr :: rest)
      [.set (selectorSetOf chain.table chainName peer peerIndex (isV6Key addr) id)
          ((addr :: rest).map fun a => ⟨ipKey a, false, []⟩) fresh,
        .rule (selectorRule bo (addressFamily (isV6Key addr)) chainName chain policyName
          (hashString (selectorText peer))
          (selectorSetOf chain.table chainName peer peerIndex (isV6Key addr) id))
          .addRule false isNew]

/-- The calls for one group of addresses. -/
theorem exec_addIPRule {addrs : List Str} {es : List Event} {u : Unit}
    (h : Exec (addIPRule bo chainName addrs chain policyName peer peerIndex) es u) :
    AddressCalls bo chainName chain policyName peer peerIndex addrs es := by
  cases addrs with
  | nil =>
    obtain ⟨-, rfl⟩ := exec_pure.1 h
    exact .none
  | cons addr rest =>
    unfold addIPRule at h
    obtain ⟨set, es₁, es₂, hset, hrule, rfl⟩ := exec_bind.1 h
    obtain ⟨id, fresh, -, rfl, rfl⟩ := exec_updateSet.1 hset
    obtain ⟨isNew, es₃, es₄, h₃, h₄, rfl⟩ := exec_bind.1 hrule
    obtain rfl := exec_updateRule.1 h₃
    obtain ⟨-, rfl⟩ := exec_pure.1 h₄
    exact .set addr rest id fresh isNew

/-- **The calls of `addIPRules`**: one list for the IPv4 addresses, one for the others. -/
theorem exec_addIPRules {addrs : List Str} {es : List Event} {u : Unit}
    (h : Exec (addIPRules bo chainName addrs chain policyName peer peerIndex) es u) :
    (∀ a ∈ addrs, (NetIP.parseAddr a).isSome = true) ∧ ∃ es₄ es₆, es = es₄ ++ es₆ ∧
      AddressCalls bo chainName chain policyName peer peerIndex (addrs.filter isIPv4Text) es₄ ∧
      AddressCalls bo chainName chain policyName peer peerIndex
        (addrs.filter fun a => !isIPv4Text a) es₆ := by
  unfold addIPRules at h
  obtain ⟨p, es₀, es₁, hsplit, hcalls, rfl⟩ := exec_bind.1 h
  obtain ⟨hok, rfl⟩ := exec_ofExcept.1 hsplit
  have hparsed := parsed_of_splitAddrs hok
  obtain rfl := Except.ok.inj (hok.symm.trans (splitAddrs_eq_ok hparsed))
  obtain ⟨_, es₄, es₆, h₄, h₆, rfl⟩ := exec_bind.1 hcalls
  exact ⟨hparsed, es₄, es₆, rfl, exec_addIPRule (exec_wrapErr.1 h₄),
    exec_addIPRule (exec_wrapErr.1 h₆)⟩

/-- The gob stream of a string, with what stands before the string. -/
theorem gobString_eq (s : Str) : gobString s =
    gobUint (([0x0c, 0x00] ++ gobUint s.length).length + s.length) ++
      ([0x0c, 0x00] ++ gobUint s.length) ++ s := by
  simp only [gobString, List.length_append, List.append_assoc, Nat.add_assoc]

/-- Names that differ in one byte stay different. -/
theorem shortName_byte_inj {a b : Str} {x y : UInt8}
    (h : shortName (a ++ x :: b) = shortName (a ++ y :: b)) : x = y := by
  have hlen : (a ++ x :: b).length = (a ++ y :: b).length := by
    rw [List.length_append, List.length_append, List.length_cons, List.length_cons]
  unfold shortName at h
  rw [hlen] at h
  split at h
  · have hsum : fnv32a (gobString (a ++ x :: b)) = fnv32a (gobString (a ++ y :: b)) :=
      hex_injective h
    rw [gobString_eq, gobString_eq, hlen] at hsum
    generalize gobUint _ ++ ([0x0c, 0x00] ++ gobUint _) = header at hsum
    rw [← List.append_assoc header, ← List.append_assoc header] at hsum
    exact fnv32a_byte_inj hsum
  · exact (List.cons.inj (List.append_cancel_left h)).1

/-- The sets of the two versions have different names. -/
theorem selectorSetOf_name_ne (table : Str) (id id' : Nat) :
    (selectorSetOf table chainName peer peerIndex false id).name ≠
      (selectorSetOf table chainName peer peerIndex true id').name := by
  have hname : ∀ isV6 id, (selectorSetOf table chainName peer peerIndex isV6 id).name =
      shortName ((chainName ++ str "_" ++ getAddressSuffix chainName ++ str "_" ++
        decimal peerIndex ++ str "_" ++ str "ipv") ++ (if isV6 then 0x36 else 0x34) ::
          (str "_" ++ hashString (selectorText peer))) := by
    intro isV6 id
    have hproto : (addressFamily isV6).protocol = str "ipv" ++ [if isV6 then 0x36 else 0x34] := by
      cases isV6 <;> decide
    simp only [selectorSetOf, NftSet.short, selectorSet, hproto, List.append_assoc,
      List.cons_append,
      List.nil_append]
  rw [hname, hname]
  intro heq
  exact absurd (shortName_byte_inj heq) (by decide)

/-- The name of a selector set tells its version. -/
theorem selectorSetOf_version_eq {table : Str} {a b : Bool} (id id' : Nat)
    (h : (selectorSetOf table chainName peer peerIndex a id).name =
      (selectorSetOf table chainName peer peerIndex b id').name) : a = b := by
  cases a <;> cases b
  · rfl
  · exact absurd h (selectorSetOf_name_ne _ id id')
  · exact absurd h.symm (selectorSetOf_name_ne _ id' id)
  · rfl

/-- The keys of some addresses. -/
def keyElements (addrs : List Str) : List SetElement := addrs.map fun a => ⟨ipKey a, false, []⟩

variable {addrs : List Str} {es : List Event}

/-- The set that a group of addresses is put into. -/
theorem AddressCalls.of_mem_set
    (h : AddressCalls bo chainName chain policyName peer peerIndex addrs es)
    {s : NftSet} {els : List SetElement} {fresh : Bool} (hs : .set s els fresh ∈ es) :
    els = keyElements addrs ∧ ∃ addr ∈ addrs, ∃ id,
      s = selectorSetOf chain.table chainName peer peerIndex (isV6Key addr) id := by
  cases h with
  | none => cases hs
  | set addr rest id fresh' isNew =>
    rcases List.mem_cons.1 hs with heq | hs
    · cases heq
      exact ⟨rfl, addr, List.mem_cons_self .., id, rfl⟩
    · cases List.mem_singleton.1 hs

/-- The rule that looks it up. -/
theorem AddressCalls.of_mem_rule
    (h : AddressCalls bo chainName chain policyName peer peerIndex addrs es) {r : Rule}
    (hr : r ∈ rulesOf es) : ∃ addr ∈ addrs, ∃ id,
      r = selectorRule bo (addressFamily (isV6Key addr)) chainName chain policyName
        (hashString (selectorText peer))
        (selectorSetOf chain.table chainName peer peerIndex (isV6Key addr) id) := by
  cases h with
  | none => cases hr
  | set addr rest id fresh isNew =>
    exact ⟨addr, List.mem_cons_self .., id, List.mem_singleton.1 hr⟩

/-- A group with an address has a set. -/
theorem AddressCalls.exists_set
    (h : AddressCalls bo chainName chain policyName peer peerIndex addrs es)
    (hne : addrs ≠ []) : ∃ addr ∈ addrs, ∃ id fresh,
      .set (selectorSetOf chain.table chainName peer peerIndex (isV6Key addr) id)
        (keyElements addrs) fresh ∈ es ∧
      setsOf es = [selectorSetOf chain.table chainName peer peerIndex (isV6Key addr) id] := by
  cases h with
  | none => exact absurd rfl hne
  | set addr rest id fresh isNew =>
    exact ⟨addr, List.mem_cons_self .., id, fresh, List.mem_cons_self .., rfl⟩

end Calls

/-! ### Well-typed sets -/

/-- The sets that some calls write hold the addresses, each version in its own set. -/
structure WellTypedSets (chainName : Str) (addrs : List Str) (es : List Event) : Prop where
  /-- A set is of one version, its keys have the length of this version and denote addresses, and
  the rules that look it up test the version and read the address of this version. -/
  typed : ∀ s els fresh, .set s els fresh ∈ es → ∃ isV6,
    s.keyType = (addressFamily isV6).keyType ∧
    (∀ d ∈ els, d.key.length = (addressFamily isV6).payloadLen ∧ ∃ a ∈ addrs, KeyOf a d.key) ∧
    ∀ r ∈ rulesOf es, s.name ∈ r.lookups.map Prod.fst → ∃ id rest,
      r.exprs = [.metaExpr .nfproto false 1, .cmp .eq 1 [(addressFamily isV6).nfProtocol],
        .payload 1 .networkHeader (if isIngressChain chainName then (addressFamily isV6).offset
          else (addressFamily isV6).offset + (addressFamily isV6).payloadLen)
          (addressFamily isV6).payloadLen, .lookup 1 s.name id] ++ rest
  /-- Every address is in exactly one of the sets. -/
  placed : ∀ a ∈ addrs, ∃! name, ∃ s els fresh, .set s els fresh ∈ es ∧ s.name = name ∧
    ∃ d ∈ els, KeyOf a d.key
  /-- No set is written twice. -/
  apart : ((setsOf es).map NftSet.name).Nodup

/-- No address has a zone, and IPv4-mapped addresses do not stand beside others. -/
def UniformAddresses (addrs : List Str) : Prop :=
  (∀ a ∈ addrs, hasZone a = false) ∧
    ((∀ a ∈ addrs, isMapped a = false) ∨ ∀ a ∈ addrs, isMapped a = true)

instance (addrs : List Str) : Decidable (UniformAddresses addrs) :=
  inferInstanceAs (Decidable (_ ∧ _))

theorem keyType_inj {a b : Bool} (h : (addressFamily a).keyType = (addressFamily b).keyType) :
    a = b := by
  revert h
  cases a <;> cases b <;> decide

theorem payloadLen_inj {a b : Bool}
    (h : (addressFamily a).payloadLen = (addressFamily b).payloadLen) : a = b := by
  revert h
  cases a <;> cases b <;> decide

section WellTyped

variable {bo : ByteOrder} {chainName : Str} {chain : Chain} {policyName : Str}
  {peer : MultiNetworkPolicyPeer} {peerIndex : Nat} {addrs : List Str} {es₄ es₆ : List Event}
  (hparsed : ∀ a ∈ addrs, (NetIP.parseAddr a).isSome = true)
  (h₄ : AddressCalls bo chainName chain policyName peer peerIndex (addrs.filter isIPv4Text) es₄)
  (h₆ : AddressCalls bo chainName chain policyName peer peerIndex
    (addrs.filter fun a => !isIPv4Text a) es₆)

/-- Addresses with a zone and mapped addresses are not IPv4 texts. -/
theorem isIPv4Text_eq_false {a : Str} (h : hasZone a = true ∨ isMapped a = true) :
    isIPv4Text a = false := by
  unfold hasZone isMapped at h
  unfold isIPv4Text
  cases ha : NetIP.parseAddr a with
  | none => rfl
  | some x =>
    rw [ha] at h
    cases x with
    | v4 x => rcases h with h | h <;> cases h
    | v6 x zone => rfl

include hparsed h₄ h₆

/-- Well-typed sets have no address with a zone, and the mapped ones stand alone. -/
theorem WellTypedSets.uniform (h : WellTypedSets chainName addrs (es₄ ++ es₆)) :
    UniformAddresses addrs := by
  -- a key of the second set has the length of the version that the set was given
  have hlength : ∀ {a : Str}, a ∈ addrs → isIPv4Text a = false → ∃ addr ∈ addrs,
      isIPv4Text addr = false ∧ (ipKey a).length = (addressFamily (isV6Key addr)).payloadLen ∧
      ∃ id, setsOf es₆ =
        [selectorSetOf chain.table chainName peer peerIndex (isV6Key addr) id] := by
    intro a ha hv6
    have hmem : a ∈ addrs.filter fun a => !isIPv4Text a := List.mem_filter.2 ⟨ha, by rw [hv6]; rfl⟩
    obtain ⟨addr, haddr, id, fresh, hset, hsets⟩ := h₆.exists_set (List.ne_nil_of_mem hmem)
    obtain ⟨haddr, hv6'⟩ := List.mem_filter.1 haddr
    obtain ⟨isV6, htype, hkeys, -⟩ := h.typed _ _ _ (List.mem_append_right _ hset)
    obtain rfl := keyType_inj htype
    have hkey := (hkeys ⟨ipKey a, false, []⟩ (List.mem_map.2 ⟨a, hmem, rfl⟩)).1
    refine ⟨addr, haddr, ?_, hkey, id, hsets⟩
    simpa using hv6'
  have hzone : ∀ a ∈ addrs, hasZone a = false := by
    intro a ha
    by_contra hz
    rw [Bool.not_eq_false] at hz
    obtain ⟨addr, -, -, hlen, -⟩ := hlength ha (isIPv4Text_eq_false (.inl hz))
    rw [(ipKey_spec (hparsed a ha)).1 hz] at hlen
    cases hv : isV6Key addr <;> rw [hv] at hlen <;> cases hlen
  refine ⟨hzone, ?_⟩
  by_contra hmixed
  push Not at hmixed
  obtain ⟨⟨a, ha, hmapped⟩, b, hb, hplain⟩ := hmixed
  rw [Bool.ne_false_iff] at hmapped
  rw [← Bool.eq_false_iff] at hplain
  have hav6 := isIPv4Text_eq_false (.inr hmapped)
  obtain ⟨-, halen, hakey⟩ := (ipKey_spec (hparsed a ha)).2 (hzone a ha)
  obtain ⟨-, hblen, hbkey⟩ := (ipKey_spec (hparsed b hb)).2 (hzone b hb)
  obtain ⟨addr, -, -, hlen, id, hsets⟩ := hlength ha hav6
  -- the mapped address makes the second set one of IPv4
  have haddr : isV6Key addr = false := by
    rw [← payloadLen_inj (halen.symm.trans hlen), hakey, hmapped, Bool.or_true]
    rfl
  cases hbv6 : isIPv4Text b with
  | true =>
    have hmem : b ∈ addrs.filter isIPv4Text := List.mem_filter.2 ⟨hb, hbv6⟩
    obtain ⟨addr₄, haddr₄, id₄, fresh, -, hsets₄⟩ := h₄.exists_set (List.ne_nil_of_mem hmem)
    obtain ⟨haddr₄, hv4⟩ := List.mem_filter.1 haddr₄
    have hkey₄ := ((ipKey_spec (hparsed addr₄ haddr₄)).2 (hzone addr₄ haddr₄)).2.2
    rw [hv4, Bool.true_or] at hkey₄
    have hnodup := h.apart
    rw [setsOf_append, hsets₄, hsets, hkey₄, haddr] at hnodup
    exact absurd hnodup (by simp [selectorSetOf, NftSet.short])
  | false =>
    obtain ⟨addr', -, -, hlen', id', hsets'⟩ := hlength hb hbv6
    have hsame : isV6Key addr' = isV6Key addr := by
      rw [hsets] at hsets'
      exact (keyType_inj (congrArg NftSet.keyType (List.cons.inj hsets').1)).symm
    rw [hblen, hsame, haddr, hbkey, hbv6, hplain] at hlen'
    cases hlen'

omit h₄ h₆

/-- Without zones every address gets a key that denotes it. -/
theorem UniformAddresses.key (h : UniformAddresses addrs) {a : Str} (ha : a ∈ addrs) :
    KeyOf a (ipKey a) ∧ (ipKey a).length = (addressFamily (isV6Key a)).payloadLen ∧
      isV6Key a = !(isIPv4Text a || isMapped a) :=
  (ipKey_spec (hparsed a ha)).2 (h.1 a ha)

theorem UniformAddresses.isV6Key_of_v4 (h : UniformAddresses addrs) {a : Str}
    (ha : a ∈ addrs.filter isIPv4Text) : isV6Key a = false := by
  obtain ⟨ha, hv4⟩ := List.mem_filter.1 ha
  rw [(h.key hparsed ha).2.2, hv4]
  rfl

/-- The IPv6 addresses are all taken for the same version. -/
theorem UniformAddresses.isV6Key_of_v6 (h : UniformAddresses addrs) {a b : Str}
    (ha : a ∈ addrs.filter fun a => !isIPv4Text a) (hb : b ∈ addrs.filter fun a => !isIPv4Text a) :
    isV6Key a = isV6Key b := by
  obtain ⟨ha, hav6⟩ := List.mem_filter.1 ha
  obtain ⟨hb, hbv6⟩ := List.mem_filter.1 hb
  rw [Bool.not_eq_true'] at hav6 hbv6
  rw [(h.key hparsed ha).2.2, (h.key hparsed hb).2.2, hav6, hbv6]
  rcases h.2 with hmapped | hmapped
  · rw [hmapped a ha, hmapped b hb]
  · rw [hmapped a ha, hmapped b hb]

/-- Beside an IPv4 address they are taken for IPv6. -/
theorem UniformAddresses.isV6Key_beside_v4 (h : UniformAddresses addrs) {a b : Str}
    (ha : a ∈ addrs.filter isIPv4Text) (hb : b ∈ addrs.filter fun a => !isIPv4Text a) :
    isV6Key b = true := by
  obtain ⟨ha, hv4⟩ := List.mem_filter.1 ha
  obtain ⟨hb, hbv6⟩ := List.mem_filter.1 hb
  rw [Bool.not_eq_true'] at hbv6
  rw [(h.key hparsed hb).2.2, hbv6]
  rcases h.2 with hmapped | hmapped
  · rw [hmapped b hb]
    rfl
  · rw [isIPv4Text_eq_false (.inr (hmapped a ha))] at hv4
    cases hv4

include h₄ h₆

/-- What a set that is written holds, and of which version it is. -/
theorem UniformAddresses.of_mem_set (h : UniformAddresses addrs) {s : NftSet}
    {els : List SetElement} {fresh : Bool} (hmem : .set s els fresh ∈ es₄ ++ es₆) :
    ∃ l, (∀ a ∈ l, a ∈ addrs) ∧ els = keyElements l ∧ ∃ addr ∈ l,
      (∀ a ∈ l, isV6Key a = isV6Key addr) ∧
        ∃ id, s = selectorSetOf chain.table chainName peer peerIndex (isV6Key addr) id := by
  rcases List.mem_append.1 hmem with hmem | hmem
  · obtain ⟨hels, addr, haddr, id, hs⟩ := h₄.of_mem_set hmem
    refine ⟨_, fun a ha => List.mem_of_mem_filter ha, hels, addr, haddr, fun a ha => ?_, id, hs⟩
    rw [h.isV6Key_of_v4 hparsed ha, h.isV6Key_of_v4 hparsed haddr]
  · obtain ⟨hels, addr, haddr, id, hs⟩ := h₆.of_mem_set hmem
    exact ⟨_, fun a ha => List.mem_of_mem_filter ha, hels, addr, haddr,
      fun a ha => h.isV6Key_of_v6 hparsed ha haddr, id, hs⟩

/-- The set of an address's own list holds it. -/
theorem UniformAddresses.exists_set (h : UniformAddresses addrs) {a : Str} (ha : a ∈ addrs) :
    ∃ els fresh id,
      .set (selectorSetOf chain.table chainName peer peerIndex (isV6Key a) id) els fresh ∈
      es₄ ++ es₆ ∧ ∃ d ∈ els, KeyOf a d.key := by
  cases hv4 : isIPv4Text a with
  | true =>
    have hmem : a ∈ addrs.filter isIPv4Text := List.mem_filter.2 ⟨ha, hv4⟩
    obtain ⟨addr, haddr, id, fresh, hin, -⟩ := h₄.exists_set (List.ne_nil_of_mem hmem)
    rw [h.isV6Key_of_v4 hparsed haddr, ← h.isV6Key_of_v4 hparsed hmem] at hin
    exact ⟨_, fresh, id, List.mem_append_left _ hin,
      _, List.mem_map.2 ⟨a, hmem, rfl⟩, (h.key hparsed ha).1⟩
  | false =>
    have hmem : a ∈ addrs.filter fun a => !isIPv4Text a :=
      List.mem_filter.2 ⟨ha, by rw [hv4]; rfl⟩
    obtain ⟨addr, haddr, id, fresh, hin, -⟩ := h₆.exists_set (List.ne_nil_of_mem hmem)
    rw [h.isV6Key_of_v6 hparsed haddr hmem] at hin
    exact ⟨_, fresh, id, List.mem_append_right _ hin,
      _, List.mem_map.2 ⟨a, hmem, rfl⟩, (h.key hparsed ha).1⟩

/-- No set is written twice. -/
theorem UniformAddresses.apart (h : UniformAddresses addrs) :
    ((setsOf (es₄ ++ es₆)).map NftSet.name).Nodup := by
  rw [setsOf_append, List.map_append]
  have hone : ∀ {l es}, AddressCalls bo chainName chain policyName peer peerIndex l es →
      setsOf es = [] ∨ ∃ addr ∈ l, ∃ id,
        setsOf es = [selectorSetOf chain.table chainName peer peerIndex (isV6Key addr) id] := by
    intro l es hcalls
    cases hcalls with
    | none => exact .inl rfl
    | set addr rest id fresh isNew => exact .inr ⟨addr, List.mem_cons_self .., id, rfl⟩
  rcases hone h₄ with hsets₄ | ⟨addr₄, haddr₄, id₄, hsets₄⟩
  · rcases hone h₆ with hsets₆ | ⟨addr₆, haddr₆, id₆, hsets₆⟩
    · rw [hsets₄, hsets₆]
      exact List.nodup_nil
    · rw [hsets₄, hsets₆]
      exact List.nodup_singleton _
  · rcases hone h₆ with hsets₆ | ⟨addr₆, haddr₆, id₆, hsets₆⟩
    · rw [hsets₄, hsets₆]
      exact List.nodup_singleton _
    · rw [hsets₄, hsets₆, h.isV6Key_of_v4 hparsed haddr₄, h.isV6Key_beside_v4 hparsed haddr₄ haddr₆]
      refine List.nodup_cons.2 ⟨fun hmem => ?_, List.nodup_singleton _⟩
      exact selectorSetOf_name_ne _ id₄ id₆ (List.mem_singleton.1 hmem)

omit hparsed in
/-- The rules look up the set of the version that they test. -/
theorem exists_of_mem_rulesOf {r : Rule} (hr : r ∈ rulesOf (es₄ ++ es₆)) : ∃ isV6 id,
    r = selectorRule bo (addressFamily isV6) chainName chain policyName
      (hashString (selectorText peer))
      (selectorSetOf chain.table chainName peer peerIndex isV6 id) := by
  rw [rulesOf_append, List.mem_append] at hr
  rcases hr with hr | hr
  · obtain ⟨addr, -, id, hr⟩ := h₄.of_mem_rule hr
    exact ⟨_, id, hr⟩
  · obtain ⟨addr, -, id, hr⟩ := h₆.of_mem_rule hr
    exact ⟨_, id, hr⟩

/-- Uniform addresses give well-typed sets. -/
theorem UniformAddresses.wellTyped (h : UniformAddresses addrs) :
    WellTypedSets chainName addrs (es₄ ++ es₆) := by
  refine ⟨fun s els fresh hmem => ?_, fun a ha => ?_, h.apart hparsed h₄ h₆⟩
  · obtain ⟨l, hl, rfl, addr, haddr, hall, id, rfl⟩ := h.of_mem_set hparsed h₄ h₆ hmem
    refine ⟨isV6Key addr, rfl, fun d hd => ?_, fun r hr hlookup => ?_⟩
    · obtain ⟨a, ha, rfl⟩ := List.mem_map.1 hd
      refine ⟨?_, a, hl a ha, (h.key hparsed (hl a ha)).1⟩
      rw [(h.key hparsed (hl a ha)).2.1, hall a ha]
    · obtain ⟨isV6, id', rfl⟩ := exists_of_mem_rulesOf h₄ h₆ hr
      obtain rfl := selectorSetOf_version_eq id id' (List.mem_singleton.1 hlookup)
      exact ⟨id', _, rfl⟩
  · obtain ⟨els, fresh, id, hin, hd⟩ := h.exists_set hparsed h₄ h₆ ha
    refine ⟨_, ⟨_, els, fresh, hin, rfl, hd⟩, ?_⟩
    rintro _ ⟨s', els', fresh', hin', rfl, d, hd', hkeyOf⟩
    obtain ⟨l, hl, rfl, addr, haddr, hall, id', rfl⟩ := h.of_mem_set hparsed h₄ h₆ hin'
    obtain ⟨b, hb, rfl⟩ := List.mem_map.1 hd'
    have hlen : (ipKey b).length = (addressFamily (isV6Key addr)).payloadLen := by
      rw [(h.key hparsed (hl b hb)).2.1, hall b hb]
    -- an address that is not mapped has keys of one length; mapped ones are all in one set
    have hversion : isV6Key addr = isV6Key a := by
      rcases h.2 with hmapped | hmapped
      · have hlen' := hkeyOf.length (hmapped a ha)
        rw [(h.key hparsed ha).2.2, hmapped a ha, Bool.or_false]
        exact payloadLen_inj (hlen.symm.trans hlen')
      · rw [(h.key hparsed ha).2.2, (h.key hparsed (hl addr haddr)).2.2, hmapped a ha,
          hmapped addr (hl addr haddr), Bool.or_true, Bool.or_true]
    rw [hversion]
    rfl

end WellTyped

/-- **The sets of a selector are well typed exactly when no address has a zone and IPv4-mapped
addresses do not stand beside others.** -/
theorem selector_sets_well_typed_iff {h : Host} {bo : ByteOrder} {chainName : Str}
    {addrs : List Str} {chain : Chain} {policyName : Str} {peer : MultiNetworkPolicyPeer}
    {peerIndex : Nat} {s s' : State}
    (hs : (addIPRules bo chainName addrs chain policyName peer peerIndex).run h s = .ok () s') :
    ∃ es, Advance h es s s' ∧ (WellTypedSets chainName addrs es ↔ UniformAddresses addrs) := by
  obtain ⟨es, hexec, hadvance⟩ := run_ok hs
  obtain ⟨hparsed, es₄, es₆, rfl, h₄, h₆⟩ := exec_addIPRules hexec
  exact ⟨_, hadvance, fun hw => hw.uniform hparsed h₄ h₆, fun hu => hu.wellTyped hparsed h₄ h₆⟩

/-- The state behind `addIPRules` in a new network namespace. -/
def addedAddresses (addrs : List Str) : Option State :=
  match (addIPRules .little (str "multi-ingress") addrs ⟨filterTableName, str "multi-ingress", none⟩
    (str "p") ⟨none, none, none⟩ 0).run Host.reliable (State.new Kernel.empty) with
  | .ok _ s => some s
  | .error _ _ => none

theorem addedAddresses_eq_some {addrs : List Str} {s : State} (hs : addedAddresses addrs = some s) :
    (addIPRules .little (str "multi-ingress") addrs ⟨filterTableName, str "multi-ingress", none⟩
      (str "p") ⟨none, none, none⟩ 0).run Host.reliable (State.new Kernel.empty) = .ok () s := by
  unfold addedAddresses at hs
  split at hs
  · rename_i heq
    obtain rfl := Option.some.inj hs
    exact heq
  · cases hs

set_option maxRecDepth 100000 in
/-- Plain addresses of both versions. -/
theorem plain_addresses_well_typed : ∃ s, addedAddresses [str "10.0.0.1", str "fd00::1"] = some s ∧
    ∃ es, Advance Host.reliable es (State.new Kernel.empty) s ∧
      WellTypedSets (str "multi-ingress") [str "10.0.0.1", str "fd00::1"] es := by
  have hrun : (addedAddresses [str "10.0.0.1", str "fd00::1"]).isSome = true := by decide +kernel
  obtain ⟨s, hs⟩ := Option.isSome_iff_exists.1 hrun
  obtain ⟨es, hadvance, htyped⟩ := selector_sets_well_typed_iff (addedAddresses_eq_some hs)
  exact ⟨s, hs, es, hadvance, htyped.2 (by decide)⟩

set_option maxRecDepth 100000 in
/-- **A mapped address beside an IPv4 one is written to the same set by the second call**, beside an
IPv6 one it is a short key of an IPv6 set, and an address with a zone has an empty key. -/
theorem mapped_address_shares_set : ∃ s₁ s₂ s₃,
    addedAddresses [str "10.0.0.1", str "::ffff:10.0.0.2"] = some s₁ ∧
    addedAddresses [str "fd00::1", str "::ffff:10.0.0.2"] = some s₂ ∧
    addedAddresses [str "fe80::1%eth0"] = some s₃ ∧
    (∃ key ∈ s₁.sets, s₁.sets = [key, key]) ∧
    (∃ e ∈ (s₂.kernel.commit s₂.messages).elements, (s₂.kernel.commit s₂.messages).elements.map
      (fun x => (x.table, x.set, x.elem.key.length)) =
        [(e.table, e.set, 16), (e.table, e.set, 4)]) ∧
    (s₃.kernel.commit s₃.messages).elements.map (fun x => x.elem.key) = [[]] := by
  have hrun : (addedAddresses [str "10.0.0.1", str "::ffff:10.0.0.2"]).any (fun s₁ =>
      (addedAddresses [str "fd00::1", str "::ffff:10.0.0.2"]).any fun s₂ =>
      (addedAddresses [str "fe80::1%eth0"]).any fun s₃ => decide
        ((∃ key ∈ s₁.sets, s₁.sets = [key, key]) ∧
        (∃ e ∈ (s₂.kernel.commit s₂.messages).elements, (s₂.kernel.commit s₂.messages).elements.map
          (fun x => (x.table, x.set, x.elem.key.length)) =
            [(e.table, e.set, 16), (e.table, e.set, 4)]) ∧
        (s₃.kernel.commit s₃.messages).elements.map (fun x => x.elem.key) = [[]])) = true := by
    decide +kernel
  obtain ⟨s₁, hs₁, hrun⟩ := (Option.any_eq_true _ _).1 hrun
  obtain ⟨s₂, hs₂, hrun⟩ := (Option.any_eq_true _ _).1 hrun
  obtain ⟨s₃, hs₃, hrun⟩ := (Option.any_eq_true _ _).1 hrun
  exact ⟨s₁, s₂, s₃, hs₁, hs₂, hs₃, of_decide_eq_true hrun⟩

end MultiNetPolicy
