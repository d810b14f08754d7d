import MultiNetPolicy.Equiv.Alike
import MultiNetPolicy.Equiv.Blocks

/-!
# Rendering does not depend on iteration orders

Go visits the policy map and the map of a selector's addresses in a random order, and a cluster
lists its pods in any order.  `Input.Reordered i i'` says that two inputs differ in these orders
only.  The order matters in one place: the first address that a selector peer collects beside the
IPv4 ones decides the version of them all.

* `Input.SameVersions`: both orders decide alike.  So they do for addresses in plain form
  (`isPlainAddress`), and when IPv4-mapped addresses do not stand beside other IPv6 ones.
* `sim_renderInput`: the two renderings then make the same calls up to the order of set elements,
  so that whole runs queue alike batches and fail together.
-/

namespace MultiNetPolicy

open ByteString StateExcept Render

/-! ### Plain addresses -/

/-- An IPv4 address, or an IPv6 address without a zone that is not an IPv4-mapped one: the forms
that `net.IP.String` writes. -/
def isPlainAddress (ip : Str) : Bool :=
  match NetIP.parseAddr ip with
  | some (.v4 _) => true
  | some (.v6 x zone) => zone.isEmpty && (NetIP.to4 x).isNone
  | none => false

/-- The text of an IPv4 address. -/
def isIPv4Text (ip : Str) : Bool := (NetIP.parseAddr ip).any NetIP.Addr.is4

/-- The version that `addIPRule` takes an address for. -/
def isV6Key (ip : Str) : Bool := ((NetIP.parseIP ip).bind NetIP.to4).isNone

/-- Both parsers of the source agree on IPv4 addresses. -/
theorem isV6Key_of_isIPv4Text {ip : Str} (h : isIPv4Text ip = true) : isV6Key ip = false := by
  unfold isIPv4Text at h
  unfold isV6Key NetIP.parseIP
  cases ha : NetIP.parseAddr ip with
  | none =>
    rw [ha] at h
    cases h
  | some a =>
    rw [ha] at h
    cases a with
    | v4 x =>
      -- the sixteen-byte form of an IPv4 address has the mapped high bits
      have hlt := x.isLt
      have hbits : (BitVec.ofNat 128 (NetIP.mappedHigh * 2 ^ 32 + x.toNat)).toNat / 2 ^ 32 =
          NetIP.mappedHigh := by
        rw [BitVec.toNat_ofNat]
        unfold NetIP.mappedHigh
        omega
      simp only [Option.bind_some, NetIP.to4, hbits]
      rfl
    | v6 x zone => cases h

/-- They agree on the version of a plain address. -/
theorem isV6Key_of_plain {ip : Str} (h : isPlainAddress ip = true) :
    isV6Key ip = !isIPv4Text ip := by
  cases hv4 : isIPv4Text ip with
  | true => exact isV6Key_of_isIPv4Text hv4
  | false =>
    unfold isPlainAddress at h
    unfold isIPv4Text at hv4
    unfold isV6Key NetIP.parseIP
    split at h
    · rename_i x hx
      rw [hx] at hv4
      cases hv4
    · rename_i x zone hx
      rw [Bool.and_eq_true, List.isEmpty_iff] at h
      obtain ⟨rfl, hto4⟩ := h
      rw [hx]
      exact hto4
    · cases h

/-- Addresses are split by family. -/
theorem splitAddrs_eq_ok : ∀ {addrs : List Str},
    (∀ a ∈ addrs, (NetIP.parseAddr a).isSome = true) →
    splitAddrs addrs = .ok (addrs.filter isIPv4Text, addrs.filter fun a => !isIPv4Text a)
  | [], _ => rfl
  | a :: addrs, h => by
    have hrest := splitAddrs_eq_ok fun x hx => h x (List.mem_cons_of_mem _ hx)
    obtain ⟨addr, haddr⟩ := Option.isSome_iff_exists.1 (h a (List.mem_cons_self ..))
    have htext : isIPv4Text a = addr.is4 := by
      rw [isIPv4Text, haddr]
      rfl
    rw [splitAddrs, hrest, haddr]
    cases addr with
    | v4 x =>
      have hv4 : isIPv4Text a = true := htext
      rw [List.filter_cons_of_pos hv4, List.filter_cons_of_neg (by rw [hv4]; decide)]
      rfl
    | v6 x zone =>
      have hv6 : isIPv4Text a = false := htext
      rw [List.filter_cons_of_neg (by rw [hv6]; decide),
        List.filter_cons_of_pos (by rw [hv6]; decide)]
      rfl

/-- Plain addresses parse. -/
theorem isSome_of_plain {ip : Str} (h : isPlainAddress ip = true) :
    (NetIP.parseAddr ip).isSome = true := by
  unfold isPlainAddress at h
  cases hp : NetIP.parseAddr ip with
  | some a => rfl
  | none =>
    rw [hp] at h
    cases h

/-- Addresses that are split have been parsed. -/
theorem parsed_of_splitAddrs : ∀ {addrs : List Str} {p : List Str × List Str},
    splitAddrs addrs = .ok p → ∀ a ∈ addrs, (NetIP.parseAddr a).isSome = true
  | [], _, _ => nofun
  | addr :: rest, p, h => by
    rw [splitAddrs] at h
    cases haddr : NetIP.parseAddr addr with
    | none =>
      rw [haddr] at h
      cases h
    | some a =>
      cases hrest : splitAddrs rest with
      | error e =>
        rw [haddr, hrest] at h
        cases h
      | ok q =>
        rw [List.forall_mem_cons, haddr]
        exact ⟨rfl, parsed_of_splitAddrs hrest⟩

/-! ### The addresses of a selector -/

/-- The collected addresses are those of the map. -/
def Synced (acc : List Str × List Str) : Prop := ∀ ip, ip ∈ acc.1 ↔ ip ∈ acc.2

/-- A loop whose rounds add the addresses that `P` gives them. -/
theorem foldl_collects {α : Type} {f : List Str × List Str → α → List Str × List Str}
    {P : α → Str → Prop}
    (hf : ∀ acc x, Synced acc → Synced (f acc x) ∧
      ∀ ip, ip ∈ (f acc x).2 ↔ ip ∈ acc.2 ∨ P x ip) :
    ∀ (l : List α) {acc : List Str × List Str}, Synced acc → Synced (l.foldl f acc) ∧
      ∀ ip, ip ∈ (l.foldl f acc).2 ↔ ip ∈ acc.2 ∨ ∃ x ∈ l, P x ip
  | [], acc, h => ⟨h, fun ip => by simp⟩
  | x :: l, acc, h => by
    obtain ⟨hsync, hmem⟩ := hf acc x h
    obtain ⟨hsync', hmem'⟩ := foldl_collects hf l hsync
    refine ⟨hsync', fun ip => ?_⟩
    rw [List.foldl_cons, hmem', hmem, or_assoc]
    simp only [List.mem_cons, exists_eq_or_imp]

/-- Such a loop from the start collects what its rounds give. -/
theorem mem_foldl_collects {α : Type} {f : List Str × List Str → α → List Str × List Str}
    {P : α → Str → Prop}
    (hf : ∀ acc x, Synced acc → Synced (f acc x) ∧
      ∀ ip, ip ∈ (f acc x).2 ↔ ip ∈ acc.2 ∨ P x ip) (l : List α) {ip : Str} :
    ip ∈ (l.foldl f ([], [])).1 ↔ ∃ x ∈ l, P x ip := by
  have hstart : Synced ([], []) := fun _ => Iff.rfl
  obtain ⟨hsync, hmem⟩ := foldl_collects hf l hstart
  rw [hsync ip, hmem ip]
  simp

/-- What is collected in a map. -/
theorem mem_foldl_insertKey {ip : Str} : ∀ {l m : List Str},
    ip ∈ l.foldl insertKey m ↔ ip ∈ m ∨ ip ∈ l
  | [], m => by simp
  | x :: l, m => by
    have hins : ip ∈ insertKey m x ↔ ip ∈ m ∨ ip = x := by
      unfold insertKey
      split
      · rename_i hx
        constructor
        · exact .inl
        · rintro (h | rfl)
          · exact h
          · exact hx
      · rw [List.mem_append, List.mem_singleton]
    rw [List.foldl_cons, mem_foldl_insertKey, hins, or_assoc, List.mem_cons]

/-- The addresses that a selected pod contributes. -/
def PodInfo.contributes (podInfo : PodInfo) (policyNetworks : List Str) (sPodinfo : PodInfo)
    (ip : Str) : Prop :=
  ∃ podIntf ∈ podInfo.interfaces.filter fun i => i.checkPolicyNetwork policyNetworks,
    ∃ sPodIntf ∈ sPodinfo.interfaces.filter fun i => i.checkPolicyNetwork policyNetworks,
      ip ∈ podIntf.ips ++ sPodIntf.ips

/-- Collecting the addresses of one pod more. -/
theorem collectPodIPs_collects (deps : PolicyDeps) (chainName : Str) (peerIndex : Nat)
    (podInfo : PodInfo) (policyNetworks : List Str) (sPodinfo : PodInfo)
    {acc : List Str × List Str} (h : Synced acc) :
    Synced (collectPodIPs deps chainName peerIndex podInfo policyNetworks sPodinfo acc) ∧
      ∀ ip, ip ∈ (collectPodIPs deps chainName peerIndex podInfo policyNetworks sPodinfo acc).2 ↔
        ip ∈ acc.2 ∨ podInfo.contributes policyNetworks sPodinfo ip := by
  refine foldl_collects (fun acc podIntf hacc => ?_) _ h
  refine foldl_collects (fun acc sPodIntf hacc => ⟨fun ip => ?_, fun ip => mem_foldl_insertKey⟩) _
    hacc
  -- the map only grows, so it holds what was collected before
  rw [List.mem_append, (deps.mapRange_perm ..).mem_iff, mem_foldl_insertKey, hacc ip]
  tauto

/-- The addresses that a pod of the list contributes when the selectors select it. -/
def PolicyDeps.contributes (deps : PolicyDeps) (podInfo : PodInfo) (policyNetworks : List Str)
    (nsSelector : Option Selector) (sPod : Pod) (ip : Str) : Prop :=
  ∃ nsLabels, deps.getNamespaceInfo sPod.namespace = some nsLabels ∧
    (nsSelector.any fun s => !s.isMatch nsLabels) = false ∧
      ∃ sPodinfo, deps.getPodInfo sPod = some sPodinfo ∧
        podInfo.contributes policyNetworks sPodinfo ip

/-- **The addresses of a selector, without an order.** -/
theorem mem_selectorIPs {deps : PolicyDeps} {chainName : Str} {peerIndex : Nat} {podInfo : PodInfo}
    {policyNetworks : List Str} {nsSelector : Option Selector} {pods : List Pod} {ip : Str} :
    ip ∈ selectorIPs deps chainName peerIndex podInfo policyNetworks nsSelector pods ↔
      ∃ sPod ∈ pods, deps.contributes podInfo policyNetworks nsSelector sPod ip := by
  refine mem_foldl_collects (fun acc sPod hacc => ?_) pods
  -- a pod that is passed over contributes nothing
  have hskip : (∀ ip, ¬ deps.contributes podInfo policyNetworks nsSelector sPod ip) →
      Synced acc ∧ ∀ ip, ip ∈ acc.2 ↔
        ip ∈ acc.2 ∨ deps.contributes podInfo policyNetworks nsSelector sPod ip :=
    fun hno => ⟨hacc, fun ip => by simp [hno ip]⟩
  cases hns : deps.getNamespaceInfo sPod.namespace with
  | none =>
    refine hskip ?_
    rintro ip ⟨_, h, _⟩
    simp [hns] at h
  | some nsLabels =>
    cases hsel : nsSelector.any fun s => !s.isMatch nsLabels with
    | true =>
      simp only [hsel, if_true]
      refine hskip ?_
      rintro ip ⟨_, h, h', _⟩
      obtain rfl : nsLabels = _ := by simpa [hns] using h
      rw [hsel] at h'
      cases h'
    | false =>
      simp only [hsel, Bool.false_eq_true, if_false]
      cases hinfo : deps.getPodInfo sPod with
      | none =>
        refine hskip ?_
        rintro ip ⟨_, _, _, _, h, _⟩
        simp [hinfo] at h
      | some sPodinfo =>
        have hpod := collectPodIPs_collects deps chainName peerIndex podInfo policyNetworks
          sPodinfo hacc
        refine ⟨hpod.1, fun ip => (hpod.2 ip).trans (or_congr_right ?_)⟩
        constructor
        · exact fun h => ⟨nsLabels, hns, hsel, sPodinfo, hinfo, h⟩
        · rintro ⟨_, _, _, _, h, hip⟩
          obtain rfl : sPodinfo = _ := by simpa [hinfo] using h
          exact hip

/-- The addresses `applyPolicyPeersRulesSelector` collects before it writes any set. -/
def selectorAddresses (deps : PolicyDeps) (chainName : Str) (peerIndex : Nat) (podInfo : PodInfo)
    (policyNetworks : List Str) (peer : MultiNetworkPolicyPeer) : Except Error (List Str) := do
  let podSelector ← (optionalSelector peer.podSelector).mapError (.wrap (str "pod selector"))
  let pods ← (deps.listPods (podSelector.getD [])).mapError (.wrap (str "pod list failed"))
  let nsSelector ← (optionalSelector peer.namespaceSelector).mapError
    (.wrap (str "namespace selector"))
  return selectorIPs deps chainName peerIndex podInfo policyNetworks nsSelector pods

/-- First the addresses, then the sets and rules for them. -/
theorem applyPolicyPeersRulesSelector_eq (bo : ByteOrder) (deps : PolicyDeps) (chainName : Str)
    (chain : Chain) (policyName : Str) (peer : MultiNetworkPolicyPeer) (podInfo : PodInfo)
    (policyNetworks : List Str) (peerIndex : Nat) :
    applyPolicyPeersRulesSelector bo deps chainName chain policyName peer podInfo policyNetworks
        peerIndex =
      ofExcept (selectorAddresses deps chainName peerIndex podInfo policyNetworks peer) >>=
        fun ips =>
        Render.wrapErr (str "add selector IP rules")
          (addIPRules bo chainName ips chain policyName peer peerIndex) := by
  unfold applyPolicyPeersRulesSelector selectorAddresses
  cases optionalSelector peer.podSelector with
  | error e => rfl
  | ok podSelector =>
    change Render.wrapErr _ (ofExcept (deps.listPods (podSelector.getD []))) >>= _ =
      ofExcept ((deps.listPods (podSelector.getD [])).mapError _ >>= _) >>= _
    cases deps.listPods (podSelector.getD []) with
    | error e => rfl
    | ok pods =>
      cases optionalSelector peer.namespaceSelector with
      | error e => rfl
      | ok nsSelector => rfl

/-- **The addresses of a selector peer**, whatever the order they are collected in. -/
theorem mem_selectorAddresses_iff {deps : PolicyDeps} {chainName : Str} {peerIndex : Nat}
    {podInfo : PodInfo} {policyNetworks : List Str} {peer : MultiNetworkPolicyPeer} {ip : Str} :
    ip ∈ (selectorAddresses deps chainName peerIndex podInfo policyNetworks peer).toOption.getD [] ↔
      ∃ podSelector pods nsSelector, optionalSelector peer.podSelector = .ok podSelector ∧
        deps.listPods (podSelector.getD []) = .ok pods ∧
        optionalSelector peer.namespaceSelector = .ok nsSelector ∧
        ∃ sPod ∈ pods, deps.contributes podInfo policyNetworks nsSelector sPod ip := by
  unfold selectorAddresses
  cases optionalSelector peer.podSelector with
  | error e => simp [Except.mapError, Bind.bind, Except.bind, Except.toOption]
  | ok podSelector =>
    cases hlist : deps.listPods (podSelector.getD []) with
    | error e => simp [Except.mapError, Bind.bind, Except.bind, Except.toOption, hlist]
    | ok pods =>
      cases optionalSelector peer.namespaceSelector with
      | error e => simp [Except.mapError, Bind.bind, Except.bind, Except.toOption, hlist]
      | ok nsSelector =>
        simp [Except.mapError, Bind.bind, Except.bind, Except.toOption, hlist, pure, Except.pure,
          mem_selectorIPs]

/-! ### Orders of policies -/

/-- A policy applies to pods of its namespace. -/
theorem applicable_namespace {pod : Pod} {podInfo : PodInfo} {policy : MultiNetworkPolicy}
    {p : InternalPolicy} (h : applicable pod podInfo policy = some p) :
    policy.namespace = pod.namespace := by
  unfold applicable at h
  split at h
  · rename_i hc
    exact hc.1
  · cases h

/-- Policies of one pod with the same name are the same. -/
theorem compareInternalPolicy_antisymm {i : Input} {p q : InternalPolicy}
    (hp : p ∈ i.applicablePolicies) (hq : q ∈ i.applicablePolicies)
    (hpq : compareInternalPolicy p q) (hqp : compareInternalPolicy q p) : p = q := by
  obtain ⟨a, ha, hpa⟩ := List.mem_filterMap.1 hp
  obtain ⟨b, hb, hqb⟩ := List.mem_filterMap.1 hq
  have hname : policyNamespacedName a = policyNamespacedName b := by
    rw [← applicable_policy hpa, ← applicable_policy hqb]
    exact antisymm_le hpq hqp
  have hnamespace : a.namespace = b.namespace :=
    (applicable_namespace hpa).trans (applicable_namespace hqb).symm
  unfold policyNamespacedName at hname
  rw [hnamespace, List.append_cancel_left_eq] at hname
  have hab : a = b :=
    List.inj_on_of_nodup_map i.policyMap.keys_nodup ha hb (Prod.ext hnamespace hname)
  rw [hab, hqb] at hpa
  exact (Option.some.inj hpa).symm

/-- Sorting forgets the order of the policy map. -/
theorem insertionSort_policies {i : Input} {l l' : List InternalPolicy} (hperm : l.Perm l')
    (hl : ∀ p ∈ l, p ∈ i.applicablePolicies) :
    l.insertionSort compareInternalPolicy = l'.insertionSort compareInternalPolicy := by
  have : Std.Total compareInternalPolicy := ⟨fun _ _ => total_le _ _⟩
  have : IsTrans InternalPolicy compareInternalPolicy := ⟨fun _ _ _ => trans_le⟩
  refine List.Perm.eq_of_pairwise (fun p q hp hq hpq hqp => ?_) (List.pairwise_insertionSort _ l)
    (List.pairwise_insertionSort _ l')
    ((List.perm_insertionSort _ l).trans (hperm.trans (List.perm_insertionSort _ l').symm))
  have hq' : q ∈ l := hperm.mem_iff.2 ((List.mem_insertionSort _).1 hq)
  exact compareInternalPolicy_antisymm (hl p ((List.mem_insertionSort _).1 hp)) (hl q hq') hpq hqp

/-! ### Reordered inputs -/

/-- Two answers of `ListPods`: the same pods in some order, or failures. -/
def SamePods : Except Error (List Pod) → Except Error (List Pod) → Prop
  | .ok pods, .ok pods' => pods.Perm pods'
  | .error _, .error _ => True
  | _, _ => False

/-- Cluster lookups that differ in the orders of lists and maps only. -/
structure PolicyDeps.Reordered (deps deps' : PolicyDeps) : Prop where
  pods : ∀ sel, SamePods (deps.listPods sel) (deps'.listPods sel)
  namespaces : deps.getNamespaceInfo = deps'.getNamespaceInfo
  podInfos : deps.getPodInfo = deps'.getPodInfo

/-- Inputs that differ in the orders of lists and maps only. -/
structure Input.Reordered (i i' : Input) : Prop where
  deps : i.deps.Reordered i'.deps
  cfg : i.cfg = i'.cfg
  policies : i.policyMap.policies.Perm i'.policyMap.policies
  pod : i.pod = i'.pod
  podInfo : i.podInfo = i'.podInfo

/-- The addresses of a pod are plain. -/
def PodInfo.Plain (info : PodInfo) : Prop :=
  ∀ intf ∈ info.interfaces, ∀ ip ∈ intf.ips, isPlainAddress ip = true

/-- The addresses of every pod that a selector can find are plain. -/
def PolicyDeps.Plain (deps : PolicyDeps) : Prop :=
  ∀ pod info, deps.getPodInfo pod = some info → info.Plain

theorem plain_of_contributes {deps : PolicyDeps} (hdeps : deps.Plain) {podInfo : PodInfo}
    (hinfo : podInfo.Plain) {policyNetworks : List Str} {nsSelector : Option Selector} {sPod : Pod}
    {ip : Str} (h : deps.contributes podInfo policyNetworks nsSelector sPod ip) :
    isPlainAddress ip = true := by
  obtain ⟨_, -, -, sPodinfo, hs, podIntf, hpod, sPodIntf, hspod, hip⟩ := h
  rcases List.mem_append.1 hip with hip | hip
  · exact hinfo podIntf (List.mem_of_mem_filter hpod) ip hip
  · exact hdeps sPod sPodinfo hs sPodIntf (List.mem_of_mem_filter hspod) ip hip

/-! ### The version of a peer's addresses -/

/-- The version of the addresses that are not IPv4: the first of them decides. -/
def leadVersion (addrs : List Str) : Option Bool :=
  (addrs.find? fun a => !isIPv4Text a).map isV6Key

/-- The addresses of a selector peer: the peer with its index, in a rule of the policy. -/
def PolicyDeps.addressesOf (deps : PolicyDeps) (podInfo : PodInfo) (d : Direction)
    (p : InternalPolicy) (index : Nat) (peer : MultiNetworkPolicyPeer × Nat) :
    Except Error (List Str) :=
  selectorAddresses deps (peersChainName (policyChainFullName d.entry p.policy) index) peer.2
    podInfo p.policyNetworks peer.1

/-- For every selector peer of the policy the version is the same with both lookups. -/
def PolicyDeps.SameVersions (deps deps' : PolicyDeps) (podInfo : PodInfo) (d : Direction)
    (p : InternalPolicy) : Prop :=
  ∀ x ∈ (p.policy.rulesIn d).zipIdx, ∀ y ∈ x.1.peers.zipIdx, y.1.ipBlock = none →
    leadVersion ((deps.addressesOf podInfo d p x.2 y).toOption.getD []) =
      leadVersion ((deps'.addressesOf podInfo d p x.2 y).toOption.getD [])

/-- For every selector peer of the applied policies the first address beside the IPv4 ones is taken
for the same version in both inputs. -/
def Input.SameVersions (i i' : Input) : Prop :=
  ∀ d, ∀ p ∈ i.policiesIn d, i.deps.SameVersions i'.deps i.sortedInfo d p

/-- The addresses that a selector peer collects beside the IPv4 ones are all taken for one version:
all or none of them are IPv4-mapped. -/
def Input.EvenVersions (i : Input) : Prop :=
  ∀ d, ∀ p ∈ i.policiesIn d, ∀ x ∈ (p.policy.rulesIn d).zipIdx, ∀ y ∈ x.1.peers.zipIdx,
    y.1.ipBlock = none → ∀ addrs, i.deps.addressesOf i.sortedInfo d p x.2 y = .ok addrs →
      ∀ a ∈ addrs, ∀ b ∈ addrs, isIPv4Text a = false → isIPv4Text b = false →
        isV6Key a = isV6Key b

/-- Lists with the same addresses can only differ in which address comes first. -/
theorem exists_leads_of_ne {addrs addrs' : List Str} (hmem : ∀ a, a ∈ addrs ↔ a ∈ addrs')
    (hne : leadVersion addrs ≠ leadVersion addrs') : ∃ a a',
      addrs.find? (fun a => !isIPv4Text a) = some a ∧
      addrs'.find? (fun a => !isIPv4Text a) = some a' ∧ isV6Key a ≠ isV6Key a' := by
  have hnone : addrs.find? (fun a => !isIPv4Text a) = none ↔
      addrs'.find? (fun a => !isIPv4Text a) = none := by
    rw [List.find?_eq_none, List.find?_eq_none]
    exact forall_congr' fun a => imp_congr_left (hmem a)
  unfold leadVersion at hne
  cases ha : addrs.find? fun a => !isIPv4Text a with
  | none =>
    rw [ha, hnone.1 ha] at hne
    exact absurd rfl hne
  | some a =>
    cases ha' : addrs'.find? fun a => !isIPv4Text a with
    | none =>
      rw [hnone.2 ha'] at ha
      cases ha
    | some a' =>
      rw [ha, ha'] at hne
      exact ⟨a, a', rfl, rfl, fun heq => hne (congrArg some heq)⟩

/-- Lists with the same addresses, all taken for one version. -/
theorem leadVersion_congr {addrs addrs' : List Str} (hmem : ∀ a, a ∈ addrs ↔ a ∈ addrs')
    (heven : ∀ a ∈ addrs, ∀ b ∈ addrs, isIPv4Text a = false → isIPv4Text b = false →
      isV6Key a = isV6Key b) : leadVersion addrs = leadVersion addrs' := by
  by_contra hne
  obtain ⟨a, a', ha, ha', hversion⟩ := exists_leads_of_ne hmem hne
  refine hversion (heven a (List.mem_of_find?_eq_some ha) a'
    ((hmem a').2 (List.mem_of_find?_eq_some ha')) ?_ ?_)
  · simpa using List.find?_some ha
  · simpa using List.find?_some ha'

section

variable {deps deps' : PolicyDeps} (hd : deps.Reordered deps') (podInfo : PodInfo)
include hd

/-- Which address a pod contributes does not depend on the order. -/
theorem contributes_congr (policyNetworks : List Str) (nsSelector : Option Selector) (sPod : Pod)
    (ip : Str) : deps.contributes podInfo policyNetworks nsSelector sPod ip ↔
      deps'.contributes podInfo policyNetworks nsSelector sPod ip := by
  unfold PolicyDeps.contributes
  rw [hd.namespaces, hd.podInfos]

/-- A selector peer has the same addresses in both orders, or fails in both. -/
theorem selectorAddresses_congr (chainName : Str) (peerIndex : Nat) (policyNetworks : List Str)
    (peer : MultiNetworkPolicyPeer) :
    (∃ addrs addrs', selectorAddresses deps chainName peerIndex podInfo policyNetworks peer =
        .ok addrs ∧ selectorAddresses deps' chainName peerIndex podInfo policyNetworks peer =
          .ok addrs' ∧ ∀ a, a ∈ addrs ↔ a ∈ addrs') ∨
      ∃ e e', selectorAddresses deps chainName peerIndex podInfo policyNetworks peer = .error e ∧
        selectorAddresses deps' chainName peerIndex podInfo policyNetworks peer = .error e' := by
  unfold selectorAddresses
  cases optionalSelector peer.podSelector with
  | error e => exact .inr ⟨_, _, rfl, rfl⟩
  | ok podSelector =>
    have hsame := hd.pods (podSelector.getD [])
    change (∃ addrs addrs', ((deps.listPods (podSelector.getD [])).mapError _ >>= _) = _ ∧
      ((deps'.listPods (podSelector.getD [])).mapError _ >>= _) = _ ∧ _) ∨
      ∃ e e', ((deps.listPods (podSelector.getD [])).mapError _ >>= _) = _ ∧
        ((deps'.listPods (podSelector.getD [])).mapError _ >>= _) = _
    revert hsame
    rcases deps.listPods (podSelector.getD []) with e | pods <;>
      rcases deps'.listPods (podSelector.getD []) with e' | pods' <;> intro hsame
    · exact .inr ⟨_, _, rfl, rfl⟩
    · exact hsame.elim
    · exact hsame.elim
    · cases optionalSelector peer.namespaceSelector with
      | error e => exact .inr ⟨_, _, rfl, rfl⟩
      | ok nsSelector =>
        -- both list the same pods, in some order
        have hperm : pods.Perm pods' := hsame
        refine .inl ⟨_, _, rfl, rfl, fun ip => ?_⟩
        rw [mem_selectorIPs, mem_selectorIPs]
        exact exists_congr fun sPod => and_congr hperm.mem_iff
          (contributes_congr hd podInfo _ _ sPod ip)

end

/-! ### The same calls -/

/-- Addresses of one version in two orders. -/
theorem sim_addIPRule (bo : ByteOrder) (chainName : Str) (chain : Chain) (policyName : Str)
    (peer : MultiNetworkPolicyPeer) (peerIndex : Nat) {addrs addrs' : List Str}
    (hmem : ∀ a, a ∈ addrs ↔ a ∈ addrs')
    (hversion : ∀ a ∈ addrs.head?, ∀ a' ∈ addrs'.head?, isV6Key a = isV6Key a') :
    Sim Eq (addIPRule bo chainName addrs chain policyName peer peerIndex)
      (addIPRule bo chainName addrs' chain policyName peer peerIndex) := by
  have hels : SameElements (addrs.map fun a => ⟨ipKey a, false, []⟩)
      (addrs'.map fun a => ⟨ipKey a, false, []⟩) := by
    intro x
    rw [List.mem_map, List.mem_map]
    exact exists_congr fun a => and_congr_left fun _ => hmem a
  cases addrs with
  | nil =>
    have hnil : addrs' = [] := List.eq_nil_iff_forall_not_mem.2 fun a ha => by
      cases (hmem a).2 ha
    rw [hnil]
    exact .ret rfl
  | cons a rest =>
    cases addrs' with
    | nil => cases (hmem a).1 (List.mem_cons_self ..)
    | cons a' rest' =>
      -- the version of the set is taken from the first address
      have hfamily := hversion a rfl a' rfl
      unfold isV6Key at hfamily
      simp only [addIPRule, hfamily]
      exact (Sim.set hels fun _ => .ret rfl).bind fun x y hxy => by
        rw [hxy]
        exact Sim.refl _

/-- The rules for permuted addresses, when their first ones are of one version. -/
theorem sim_addIPRules (bo : ByteOrder) (chainName : Str) (chain : Chain) (policyName : Str)
    (peer : MultiNetworkPolicyPeer) (peerIndex : Nat) {addrs addrs' : List Str}
    (hmem : ∀ a, a ∈ addrs ↔ a ∈ addrs') (hlead : leadVersion addrs = leadVersion addrs') :
    Sim Eq (addIPRules bo chainName addrs chain policyName peer peerIndex)
      (addIPRules bo chainName addrs' chain policyName peer peerIndex) := by
  unfold addIPRules
  by_cases hparsed : ∀ a ∈ addrs, (NetIP.parseAddr a).isSome = true
  · rw [splitAddrs_eq_ok hparsed, splitAddrs_eq_ok fun a ha => hparsed a ((hmem a).2 ha)]
    change Sim Eq (Render.wrapErr _ _ >>= fun _ => Render.wrapErr _ _)
      (Render.wrapErr _ _ >>= fun _ => Render.wrapErr _ _)
    have hfilter : ∀ (f : Str → Bool) a, a ∈ addrs.filter f ↔ a ∈ addrs'.filter f := by
      intro f a
      rw [List.mem_filter, List.mem_filter, hmem a]
    -- the first group has IPv4 texts only; the version of the second is that of its first address
    have hv4 : ∀ {l : List Str}, ∀ a ∈ (l.filter isIPv4Text).head?, isV6Key a = false := by
      intro l a ha
      exact isV6Key_of_isIPv4Text (List.mem_filter.1 (List.mem_of_mem_head? ha)).2
    refine ((sim_addIPRule bo chainName chain policyName peer peerIndex (hfilter _)
      fun a ha a' ha' => ?_).wrapErr _ _).bind fun _ _ _ => (sim_addIPRule bo chainName chain
        policyName peer peerIndex (hfilter _) fun a ha a' ha' => ?_).wrapErr _ _
    · rw [hv4 a ha, hv4 a' ha']
    · rw [List.head?_filter] at ha ha'
      unfold leadVersion at hlead
      rw [ha, ha'] at hlead
      exact Option.some.inj hlead
  · -- an address that does not parse makes both fail
    have hfails : ∀ {l : List Str}, (∃ a ∈ l, ¬ (NetIP.parseAddr a).isSome = true) →
        ∃ e, splitAddrs l = .error e := by
      rintro l ⟨a, ha, hnot⟩
      cases hsplit : splitAddrs l with
      | error e => exact ⟨e, rfl⟩
      | ok p => exact absurd (parsed_of_splitAddrs hsplit a ha) hnot
    push Not at hparsed
    obtain ⟨a, ha, hnot⟩ := hparsed
    obtain ⟨e, he⟩ := hfails ⟨a, ha, hnot⟩
    obtain ⟨e', he'⟩ := hfails ⟨a, (hmem a).1 ha, hnot⟩
    rw [he, he']
    exact .fail e e'

/-- The bootstrap returns the base chains. -/
theorem sim_bootstrapNetfilterRules (bo : ByteOrder) (interfaces : List InterfaceInfo) :
    Sim (fun n n' => n = NftState.base bo ∧ n' = NftState.base bo)
      (bootstrapNetfilterRules bo interfaces) (bootstrapNetfilterRules bo interfaces) := by
  have hchains : Sim (fun n n' => n = NftState.base bo ∧ n' = NftState.base bo)
      (bootstrapNetfilterChains bo) (bootstrapNetfilterChains bo) :=
    Sim.bind_addChain _ _ _ <| Sim.bind_addChain _ _ _ <| Sim.bind_addChain _ _ _ <|
      Sim.bind_addChain _ _ _ <| Sim.bind_addChain _ _ _ <| Sim.bind_addChain _ _ _ <|
        Sim.bind_addChain _ _ _ <| .ret ⟨rfl, rfl⟩
  refine hchains.bind fun n n' hn => ?_
  obtain ⟨rfl, rfl⟩ := hn
  exact Sim.bind_same _ fun _ => Sim.bind_same _ fun _ => Sim.bind_same _ fun _ =>
    Sim.bind_same _ fun _ => Sim.bind_same _ fun _ => Sim.bind_same _ fun _ =>
      Sim.bind_same _ fun _ => .ret ⟨rfl, rfl⟩

section

variable {deps deps' : PolicyDeps} (hd : deps.Reordered deps') {podInfo : PodInfo}
include hd

/-- A selector peer in another order. -/
theorem sim_applyPolicyPeersRulesSelector (bo : ByteOrder) (chainName : Str) (chain : Chain)
    (policyName : Str) (peer : MultiNetworkPolicyPeer) (policyNetworks : List Str) (peerIndex : Nat)
    (hlead : leadVersion ((selectorAddresses deps chainName peerIndex podInfo policyNetworks
        peer).toOption.getD []) =
      leadVersion ((selectorAddresses deps' chainName peerIndex podInfo policyNetworks
        peer).toOption.getD [])) :
    Sim Eq (applyPolicyPeersRulesSelector bo deps chainName chain policyName peer podInfo
        policyNetworks peerIndex)
      (applyPolicyPeersRulesSelector bo deps' chainName chain policyName peer podInfo
        policyNetworks peerIndex) := by
  rw [applyPolicyPeersRulesSelector_eq, applyPolicyPeersRulesSelector_eq]
  rcases selectorAddresses_congr hd podInfo chainName peerIndex policyNetworks peer with
    ⟨addrs, addrs', h, h', hmem⟩ | ⟨e, e', h, h'⟩
  · rw [h, h'] at hlead
    rw [h, h']
    exact (sim_addIPRules bo chainName chain policyName peer peerIndex hmem hlead).wrapErr _ _
  · rw [h, h']
    exact .fail e e'

variable {d : Direction} {p : InternalPolicy}

/-- All peers of a rule in another order. -/
theorem sim_applyPolicyPeersRules (bo : ByteOrder) (chain : Chain) (policyName : Str)
    (peers : List MultiNetworkPolicyPeer) (index : Nat)
    (hlead : ∀ y ∈ peers.zipIdx, y.1.ipBlock = none →
      leadVersion ((deps.addressesOf podInfo d p index y).toOption.getD []) =
        leadVersion ((deps'.addressesOf podInfo d p index y).toOption.getD [])) :
    Sim Eq (applyPolicyPeersRules bo deps (policyChainFullName d.entry p.policy) chain policyName
        peers podInfo p.policyNetworks index)
      (applyPolicyPeersRules bo deps' (policyChainFullName d.entry p.policy) chain policyName peers
        podInfo p.policyNetworks index) := by
  refine Sim.bind_same _ fun peersChain => Sim.bind_same _ fun _ => ?_
  refine (Sim.forEach peers 0 fun y hy => ?_).bind fun _ _ _ => Sim.refl _
  unfold applyPolicyPeer
  cases hblock : y.1.ipBlock with
  | some block => exact Sim.refl _
  | none =>
    by_cases hsel : y.1.podSelector.isSome || y.1.namespaceSelector.isSome
    · simp only [hsel, if_true]
      exact (sim_applyPolicyPeersRulesSelector hd bo _ _ _ y.1 _ y.2 (hlead y hy hblock)).wrapErr
        _ _
    · simp only [hsel]
      exact Sim.refl _

/-- All rules of a policy in another order. -/
theorem sim_applyPolicyRules (bo : ByteOrder) (chain : Chain)
    (hversions : deps.SameVersions deps' podInfo d p) :
    Sim Eq (applyPolicyRules bo deps (policyChainFullName d.entry p.policy) chain podInfo
        p.policyNetworks p.policy)
      (applyPolicyRules bo deps' (policyChainFullName d.entry p.policy) chain podInfo
        p.policyNetworks p.policy) := by
  have hrule : ∀ (policyName resetName direction : Str), ∀ x ∈ (p.policy.rulesIn d).zipIdx,
      Sim Eq (applyPolicyRule bo deps (policyChainFullName d.entry p.policy) chain podInfo
          p.policyNetworks policyName resetName direction x.2 x.1)
        (applyPolicyRule bo deps' (policyChainFullName d.entry p.policy) chain podInfo
          p.policyNetworks policyName resetName direction x.2 x.1) := by
    intro policyName resetName direction x hx
    refine Sim.bind_same _ fun _ => Sim.bind_same _ fun _ => ?_
    exact ((sim_applyPolicyPeersRules hd bo _ _ x.1.peers x.2 (hversions x hx)).wrapErr _ _).bind
      fun _ _ _ => Sim.refl _
  unfold applyPolicyRules
  rw [isIngressChain_policyChainFullName]
  cases d with
  | ingress => exact Sim.forEach _ 0 (hrule _ _ _)
  | egress => exact Sim.forEach _ 0 (hrule _ _ _)

/-- All policies of a direction in another order. -/
theorem sim_applyPolicies (bo : ByteOrder) (direction : Str) (policies : List InternalPolicy)
    (hversions : ∀ p ∈ policies, deps.SameVersions deps' podInfo d p) :
    Sim Eq (applyPolicies bo deps d.entryChain podInfo direction policies)
      (applyPolicies bo deps' d.entryChain podInfo direction policies) := by
  refine Sim.when _ ((Sim.orLoop policies fun p hp => ?_).bind fun b b' hb => ?_)
  · refine (Sim.wrapErr ?_ _ _).bind fun b b' hb => Sim.bind_same _ fun _ => .ret hb
    refine Sim.bind_same _ fun policyChain => Sim.bind_same _ fun newRules => ?_
    exact (sim_applyPolicyRules hd bo policyChain (hversions p hp)).bind fun _ _ _ => .ret rfl
  · rw [hb]
    exact Sim.refl _

end

namespace Input.Reordered

variable {i i' : Input} (hre : i.Reordered i')

include hre

/-- The same policies apply. -/
theorem applicablePolicies : i.applicablePolicies.Perm i'.applicablePolicies := by
  unfold Input.applicablePolicies Input.sortedInfo
  rw [hre.pod, hre.podInfo]
  exact hre.policies.filterMap _

theorem ingressPolicies : i.ingressPolicies = i'.ingressPolicies :=
  insertionSort_policies (hre.applicablePolicies.filter _) fun _ hp => List.mem_of_mem_filter hp

theorem egressPolicies : i.egressPolicies = i'.egressPolicies :=
  insertionSort_policies (hre.applicablePolicies.filter _) fun _ hp => List.mem_of_mem_filter hp

/-- Policies are sorted before they are applied. -/
theorem policiesIn (d : Direction) : i.policiesIn d = i'.policiesIn d := by
  cases d with
  | ingress => exact hre.ingressPolicies
  | egress => exact hre.egressPolicies

theorem sortedInfo : i.sortedInfo = i'.sortedInfo := by
  rw [Input.sortedInfo, Input.sortedInfo, hre.podInfo]

/-- Reordered inputs that take the addresses for the same versions make the same calls up to the
order of set elements. -/
theorem sim_renderInput (hversions : i.SameVersions i') (bo : ByteOrder) :
    Sim Eq (renderInput bo i) (renderInput bo i') := by
  unfold renderInput
  rw [← hre.pod, ← hre.cfg, ← hre.ingressPolicies, ← hre.egressPolicies, ← hre.sortedInfo]
  refine ((sim_bootstrapNetfilterRules bo i.sortedInfo.interfaces).wrapErr _ _).bind
    fun n n' hn => ?_
  obtain ⟨rfl, rfl⟩ := hn
  refine Sim.bind_same _ fun _ => ?_
  exact (sim_applyPolicies hre.deps (d := .ingress) bo _ _ (hversions .ingress)).bind fun _ _ _ =>
    sim_applyPolicies hre.deps (d := .egress) bo _ _ (hversions .egress)

/-- Addresses of one version are taken for it in every order. -/
theorem sameVersions_of_even (heven : i.EvenVersions) : i.SameVersions i' := by
  intro d p hp x hx y hy hblock
  rcases selectorAddresses_congr hre.deps i.sortedInfo
    (peersChainName (policyChainFullName d.entry p.policy) x.2) y.2 p.policyNetworks y.1 with
    ⟨addrs, addrs', h, h', hmem⟩ | ⟨e, e', h, h'⟩
  · have heven := heven d p hp x hx y hy hblock addrs h
    unfold PolicyDeps.addressesOf
    rw [h, h']
    exact leadVersion_congr hmem heven
  · unfold PolicyDeps.addressesOf
    rw [h, h']
    rfl

/-- So are plain addresses. -/
theorem sameVersions_of_plain (hdeps : i.deps.Plain) (hinfo : i.podInfo.Plain) :
    i.SameVersions i' := by
  refine hre.sameVersions_of_even ?_
  intro d p hp x hx y hy hblock addrs haddrs
  have hsorted : i.sortedInfo.Plain := fun intf hintf =>
    hinfo intf ((List.mem_insertionSort _).1 hintf)
  have hplain : ∀ a ∈ addrs, isV6Key a = !isIPv4Text a := by
    intro a ha
    have hmem : a ∈ (i.deps.addressesOf i.sortedInfo d p x.2 y).toOption.getD [] := by
      rw [haddrs]
      exact ha
    obtain ⟨_, _, _, -, -, -, sPod, -, hcontributes⟩ := mem_selectorAddresses_iff.1 hmem
    exact isV6Key_of_plain (plain_of_contributes hdeps hsorted hcontributes)
  intro a ha b hb hav6 hbv6
  rw [hplain a ha, hplain b hb, hav6, hbv6]

end Input.Reordered

/-! ### Whole runs -/

section

variable {h : Host} {i i' : Input} (hre : i.Reordered i') (hversions : i.SameVersions i')

include hre hversions

/-- Two runs up to their main flush. -/
theorem related_queueRules : Related Eq (queueRules h i) (queueRules h i')
    (fun _ _ => State.Alike Eq) (State.Alike Eq) := by
  have htables : bootstrapTables h i = bootstrapTables h i' := by
    unfold bootstrapTables
    rw [hre.podInfo]
  have halike : ∀ s t : State, s = t → s.Alike Eq t := fun _ _ => .of_eq fun _ => rfl
  unfold queueRules
  rw [htables, hre.pod]
  refine ((Related.same _).conseq (fun _ _ hst => hst) (fun _ _ s t hst => halike s t hst.2)
    halike).bind fun _ _ => ?_
  exact (related_run h (hre.sim_renderInput hversions h.byteOrder)).conseq (fun _ _ hst => hst)
    (fun _ _ _ _ hst => hst.2) fun _ _ hst => hst

/-- **Two runs that list things in different orders.** -/
theorem related_applyPolicyRulesForPodAndFamily (hh : h.Orderless) :
    Related Eq (applyPolicyRulesForPodAndFamily h i) (applyPolicyRulesForPodAndFamily h i')
      (fun _ _ => State.Alike Kernel.Alike) (State.Alike Kernel.Alike) := by
  have halike : ∀ s t : State, s.Alike Eq t → s.Alike Kernel.Alike t := fun s t hst =>
    hst.mono fun hk => hk ▸ Kernel.Alike.refl _
  have hqueue := (related_queueRules (h := h) hre hversions).conseq (fun _ _ hst => hst)
    (fun _ _ => halike) halike
  have hflush := (lockstep_flush hh).wrapErr
    (str "nft flush failed for pod [" ++ podNamespacedName i.pod ++ str "]")
    (str "nft flush failed for pod [" ++ podNamespacedName i'.pod ++ str "]")
  have hcleanup := (lockstep_cleanup hh).wrapErr (str "failed to cleanup nft")
    (str "failed to cleanup nft")
  refine (hqueue.bind fun _ _ => hflush).bind fun _ _ s t hst => ?_
  exact (hcleanup s t hst.2).mono (fun _ _ _ _ hst => hst.2) fun _ _ hst => hst

end

/-- **Rendering does not depend on iteration orders.**  For pod addresses in plain form, inputs that
differ in the orders of the policy map, of listed pods and of address maps queue alike batches
against the same ruleset with the same bookkeeping, or both fail to; and whole runs, also failing
ones, end in alike states. -/
theorem rendering_forgets_orders {h : Host} (hh : h.Orderless) {i i' : Input}
    (hre : i.Reordered i') (hdeps : i.deps.Plain) (hinfo : i.podInfo.Plain) (k : Kernel) :
    Outcomes (fun _ _ => State.Alike Eq) (State.Alike Eq)
        (queueRules h i (State.new k)) (queueRules h i' (State.new k)) ∧
      Outcomes (fun _ _ => State.Alike Kernel.Alike) (State.Alike Kernel.Alike)
        (applyPolicyRulesForPodAndFamily h i (State.new k))
        (applyPolicyRulesForPodAndFamily h i' (State.new k)) :=
  have hversions := hre.sameVersions_of_plain hdeps hinfo
  ⟨related_queueRules hre hversions _ _ rfl,
    related_applyPolicyRulesForPodAndFamily hre hversions hh _ _ rfl⟩

/-- Two pods with an IPv4 and an IPv6 address, listed in one order or the other. -/
def twoPods (reverse : Bool) : PolicyDeps where
  listPods _ :=
    let pods := [⟨str "default", str "a", []⟩, ⟨str "default", str "b", []⟩]
    .ok (if reverse then pods.reverse else pods)
  getNamespaceInfo _ := some []
  getPodInfo pod := some ⟨[{ netInterface (str "net1") with
    ips := if pod.name = str "a" then [str "10.0.0.1", str "10.0.0.2"] else [str "fd00::1"] }]⟩
  mapRange _ _ _ keys := if reverse then keys.reverse else keys
  mapRange_perm _ _ _ keys := by
    split
    · exact keys.reverse_perm
    · exact .refl keys

/-- A policy that lets every pod in. -/
def everyPodPolicy (name : Str) (hname : isDNS1123Subdomain name = true) : MultiNetworkPolicy :=
  ingressPolicy name hname (str "net1") [⟨[], [⟨some ⟨[], []⟩, none, none⟩]⟩]

theorem isDNS1123Subdomain_p : isDNS1123Subdomain (str "p") = true := by decide

/-- Two policies for the pods, in one order or the other. -/
def twoPodsInput (reverse : Bool) : Input where
  deps := twoPods reverse
  cfg := ⟨true, false, [], []⟩
  policyMap :=
    if reverse then
      ⟨[everyPodPolicy (str "q") (by decide), everyPodPolicy (str "p") isDNS1123Subdomain_p],
        by decide⟩
    else
      ⟨[everyPodPolicy (str "p") isDNS1123Subdomain_p, everyPodPolicy (str "q") (by decide)],
        by decide⟩
  pod := ⟨str "default", str "pod", []⟩
  podInfo := ⟨[netInterface (str "net1")]⟩

theorem reordered_twoPodsInput : (twoPodsInput false).Reordered (twoPodsInput true) where
  deps := ⟨fun _ => List.Perm.swap _ _ [], rfl, rfl⟩
  cfg := rfl
  policies := List.Perm.swap _ _ []
  pod := rfl
  podInfo := rfl

theorem plain_twoPods (reverse : Bool) : (twoPods reverse).Plain := by
  intro pod info hpod intf hintf ip hip
  obtain rfl := Option.some.inj hpod
  rw [List.mem_singleton] at hintf
  rw [hintf] at hip
  have hplain : ∀ ip ∈ [str "10.0.0.1", str "10.0.0.2"] ++ [str "fd00::1"],
      isPlainAddress ip = true := by decide
  refine hplain ip ?_
  by_cases hname : pod.name = str "a"
  · rw [if_pos hname] at hip
    exact List.mem_append_left _ hip
  · rw [if_neg hname] at hip
    exact List.mem_append_right _ hip

set_option maxRecDepth 100000 in
/-- Both orders succeed on a new network namespace, with alike rulesets. -/
theorem two_pods_in_both_orders : ∃ s t,
    applyPolicyRulesForPodAndFamily Host.reliable (twoPodsInput false) (State.new Kernel.empty) =
      .ok () s ∧
    applyPolicyRulesForPodAndFamily Host.reliable (twoPodsInput true) (State.new Kernel.empty) =
      .ok () t ∧ s.Alike Kernel.Alike t ∧ s.kernel.elements ≠ t.kernel.elements := by
  have hrun : (outcome Host.reliable (twoPodsInput false) Kernel.empty).any (fun s =>
      (outcome Host.reliable (twoPodsInput true) Kernel.empty).any fun t =>
        decide (s.kernel.elements ≠ t.kernel.elements)) = true := by
    decide +kernel
  obtain ⟨s, hs, hrun⟩ := (Option.any_eq_true _ _).1 hrun
  obtain ⟨t, ht, hne⟩ := (Option.any_eq_true _ _).1 hrun
  have hs := outcome_eq_some.1 hs
  have ht := outcome_eq_some.1 ht
  have hinfo : (twoPodsInput false).podInfo.Plain := by
    intro intf hintf ip hip
    obtain rfl := List.mem_singleton.1 hintf
    cases hip
  obtain ⟨-, hall⟩ := rendering_forgets_orders (h := Host.reliable) (fun _ _ _ _ _ _ => rfl)
    reordered_twoPodsInput (plain_twoPods false) hinfo Kernel.empty
  exact ⟨s, t, hs, ht, hall.of_ok hs ht, of_decide_eq_true hne⟩

end MultiNetPolicy
