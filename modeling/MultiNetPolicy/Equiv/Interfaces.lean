import MultiNetPolicy.Controller.PodInfo
import MultiNetPolicy.Equiv.Names

/-!
# The interfaces of a pod

`NewPodInfoFromPod` makes interfaces of the network statuses of a pod.

* `newPodInfoFromPod_eq_ok`: what a successful call returns.
* `interfaces_exact_iff`: there is one interface for each status whose attachment the pod asked for
  and whose plugin is among the network plugins, and no other, exactly when no type that matters
  is listed twice and the empty plugin name is not there to match unknown attachments.
* `attachment_names_agree_iff`: an interface carries the name of its status as it was written, while
  the plugin type is looked up under the resolved name.  Policies select the interface under the
  resolved name exactly when the two are the same, or no annotation can list the resolved one.
-/

namespace MultiNetPolicy

open ByteString Controllers

/-! ### The plugin map -/

/-- The map holds the plugin type of every selected attachment, and of no other. -/
theorem lookup_fillPluginsMap {resolver : NetDefResolver} {podNamespace : Str}
    (a : NamespacedName) :
    ∀ {networks : List NetworkSelectionElement} {m m' : List (NamespacedName × Str)},
      fillPluginsMap resolver podNamespace m networks = .ok m' →
      (∀ t, m'.lookup a = some t ↔ m.lookup a = some t ∨
        m.lookup a = none ∧ a ∈ networks.map (selectedAttachment podNamespace) ∧
          resolver a = .ok t) ∧
      (a ∈ networks.map (selectedAttachment podNamespace) → (m'.lookup a).isSome = true)
  | [], m, m', h => by
    cases h
    simp
  | n :: ns, m, m', h => by
    rw [fillPluginsMap] at h
    split at h
    · -- the attachment was resolved before
      rename_i hknown
      obtain ⟨hlookup, hsome⟩ := lookup_fillPluginsMap a h
      by_cases ha : a = selectedAttachment podNamespace n
      · rw [← ha] at hknown
        obtain ⟨t₀, ht₀⟩ := Option.isSome_iff_exists.1 hknown
        have hkept : m'.lookup a = some t₀ := (hlookup t₀).2 (.inl ht₀)
        rw [hkept, ht₀]
        refine ⟨fun t => ⟨.inl, ?_⟩, fun _ => rfl⟩
        rintro (ht | ⟨hnone, -⟩)
        · exact ht
        · cases hnone
      · rw [List.map_cons, List.mem_cons, or_iff_right ha]
        exact ⟨hlookup, hsome⟩
    · rename_i hnew
      -- it is resolved now, and the map has it from here on
      rw [Bool.not_eq_true, Option.isSome_eq_false_iff, Option.isNone_iff_eq_none] at hnew
      cases hresolver : resolver (selectedAttachment podNamespace n) with
      | error e =>
        rw [hresolver] at h
        cases h
      | ok t₀ =>
        rw [hresolver] at h
        obtain ⟨hlookup, hsome⟩ := lookup_fillPluginsMap a h
        rw [List.lookup_append, List.lookup_cons, List.lookup_nil] at hlookup
        rw [List.map_cons, List.mem_cons]
        by_cases ha : a = selectedAttachment podNamespace n
        · rw [← ha] at hnew hresolver
          rw [hnew, ← ha, beq_self_eq_true] at hlookup
          have hkept : m'.lookup a = some t₀ := (hlookup t₀).2 (.inl rfl)
          rw [hkept, hnew, hresolver]
          refine ⟨fun t => ⟨fun ht => ?_, ?_⟩, fun _ => rfl⟩
          · cases ht
            exact .inr ⟨rfl, .inl ha, rfl⟩
          · rintro (hnone | ⟨-, -, ht⟩)
            · cases hnone
            · cases ht
              rfl
        · rw [beq_eq_false_iff_ne.2 ha] at hlookup
          rw [or_iff_right ha]
          simp only [Option.or_none] at hlookup
          exact ⟨hlookup, hsome⟩

/-- The attachments a pod asks for; an annotation that cannot be parsed asks for none. -/
def Controllers.Pod.attachments (lib : Library) (pod : Controllers.Pod) : List NamespacedName :=
  ((Except.toOption <| parsePodNetworkAnnotation lib pod).getD []).map
  (selectedAttachment pod.namespace)

/-- A map of plugin types as `NewPodInfoFromPod` fills it. -/
structure PluginsMap (lib : Library) (pod : Controllers.Pod) (resolver : NetDefResolver)
    (m : List (NamespacedName × Str)) : Prop where
  lookup : ∀ a t, m.lookup a = some t ↔ a ∈ pod.attachments lib ∧ resolver a = .ok t
  isSome : ∀ a ∈ pod.attachments lib, (m.lookup a).isSome = true

/-- What is read of the annotations of a pod. -/
theorem readNetworks_eq_ok {lib : Library} {pod : Controllers.Pod}
    {criClient : Option RuntimeClient} {hostname : Str} {networkPlugins : List Str}
    {resolver : NetDefResolver} {statuses : List NetworkStatus} {netifs : List InterfaceInfo}
    {netnsPath : Str} (h : readNetworks lib pod criClient hostname networkPlugins resolver =
      .ok (statuses, netifs, netnsPath)) :
    statuses = getNetworkStatus lib pod ∧ ∃ m, PluginsMap lib pod resolver m ∧
      netifs = statuses.flatMap (statusInterfaces m networkPlugins pod.namespace) := by
  unfold readNetworks at h
  dsimp only at h
  cases hmap : fillPluginsMap resolver pod.namespace []
      ((Except.toOption <| parsePodNetworkAnnotation lib pod).getD []) with
  | error e =>
    rw [hmap] at h
    cases h
  | ok m =>
    have hm : PluginsMap lib pod resolver m :=
      ⟨fun a t => by simpa [Pod.attachments] using (lookup_fillPluginsMap a hmap).1 t,
        fun a => (lookup_fillPluginsMap a hmap).2⟩
    rw [hmap] at h
    simp only [bind, Except.bind] at h
    split at h
    · split at h
      · cases h
      · cases h
        exact ⟨rfl, m, hm, rfl⟩
    · cases h
      exact ⟨rfl, m, hm, rfl⟩

/-- What `NewPodInfoFromPod` makes of the statuses of a running pod with its own network. -/
theorem newPodInfoFromPod_eq_ok {lib : Library} {pod : Controllers.Pod}
    {criClient : Option RuntimeClient} {hostname : Str} {networkPlugins : List Str}
    {resolver : NetDefResolver} {info : Controllers.PodInfo}
    (h : newPodInfoFromPod lib pod criClient hostname networkPlugins resolver = .ok info) :
    (isMultiNetworkpolicyTarget pod = false ∧ info.interfaces = []) ∨
      info.networkStatus = getNetworkStatus lib pod ∧ ∃ m, PluginsMap lib pod resolver m ∧
        info.interfaces = lib.sortInterfaces ((getNetworkStatus lib pod).flatMap
          (statusInterfaces m networkPlugins pod.namespace)) := by
  unfold newPodInfoFromPod at h
  by_cases htarget : isMultiNetworkpolicyTarget pod = true
  · rw [if_pos htarget] at h
    cases hread : readNetworks lib pod criClient hostname networkPlugins resolver with
    | error e =>
      rw [hread] at h
      cases h
    | ok read =>
      obtain ⟨statuses, netifs, netnsPath⟩ := read
      obtain ⟨rfl, m, hm, rfl⟩ := readNetworks_eq_ok hread
      rw [hread] at h
      cases h
      exact .inr ⟨rfl, m, hm, rfl⟩
  · rw [if_neg htarget] at h
    cases h
    exact .inl ⟨Bool.not_eq_true _ ▸ htarget, List.perm_nil.1 (lib.sort_perm [])⟩

/-! ### One interface for each status -/

/-- The interface that stands for a network status: its attachment is one of the pod's, and the
type of the attachment is one of the network plugins. -/
def expectedInterface (attachments : List NamespacedName) (resolver : NetDefResolver)
    (networkPlugins : List Str) (podNamespace : Str) (s : NetworkStatus) : Option InterfaceInfo :=
  let a := statusAttachment podNamespace s.name
  match resolver a with
  | .error _ => none
  | .ok pluginType =>
    if a ∈ attachments ∧ pluginType ∈ networkPlugins then
      some ⟨s.name, s.interface, pluginType, s.ips⟩
    else none

/-- A status does not make more than one interface, and none if its attachment is unknown. -/
def PlainStatus (attachments : List NamespacedName) (resolver : NetDefResolver)
    (networkPlugins : List Str) (podNamespace : Str) (s : NetworkStatus) : Prop :=
  if statusAttachment podNamespace s.name ∈ attachments then
    ∀ pluginType ∈ (resolver (statusAttachment podNamespace s.name)).toOption,
      networkPlugins.count pluginType ≤ 1
  else [] ∉ networkPlugins

instance (attachments : List NamespacedName) (resolver : NetDefResolver) (networkPlugins : List Str)
    (podNamespace : Str) (s : NetworkStatus) :
    Decidable (PlainStatus attachments resolver networkPlugins podNamespace s) :=
  inferInstanceAs (Decidable (if statusAttachment podNamespace s.name ∈ attachments then
      ∀ pluginType ∈ (resolver (statusAttachment podNamespace s.name)).toOption,
        networkPlugins.count pluginType ≤ 1
    else [] ∉ networkPlugins))

/-- Shorter lists in the same places make a shorter whole, unless they are the same. -/
theorem eq_of_length_flatMap {α β : Type*} {f g : α → List β} : ∀ {l : List α},
    (∀ a ∈ l, (g a).Sublist (f a)) → (l.flatMap f).length = (l.flatMap g).length →
    ∀ a ∈ l, f a = g a
  | [], _, _ => nofun
  | a :: l, hsub, hlen => by
    rw [List.forall_mem_cons] at hsub ⊢
    have hhead : (g a).length ≤ (f a).length := hsub.1.length_le
    have htail : (l.flatMap g).length ≤ (l.flatMap f).length := by
      rw [List.length_flatMap, List.length_flatMap]
      exact List.sum_le_sum fun b hb => (hsub.2 b hb).length_le
    rw [List.flatMap_cons, List.flatMap_cons, List.length_append, List.length_append] at hlen
    exact ⟨(hsub.1.eq_of_length (by omega)).symm, eq_of_length_flatMap hsub.2 (by omega)⟩

/-- The interfaces of one status, one for each time its plugin is listed. -/
theorem statusInterfaces_eq_replicate (m : List (NamespacedName × Str)) (networkPlugins : List Str)
    (podNamespace : Str) (s : NetworkStatus) :
    statusInterfaces m networkPlugins podNamespace s =
      List.replicate
        (networkPlugins.count ((m.lookup (statusAttachment podNamespace s.name)).getD []))
        ⟨s.name, s.interface, (m.lookup (statusAttachment podNamespace s.name)).getD [],
          s.ips⟩ := by
  unfold statusInterfaces
  rw [List.map_const', List.count_eq_countP, List.countP_eq_length_filter]
  simp only [BEq.comm]

/-- The code makes at least the interface that stands for a status, and only that one when the
status is plain. -/
theorem statusInterfaces_spec {lib : Library} {pod : Controllers.Pod} {resolver : NetDefResolver}
    {m : List (NamespacedName × Str)} (hm : PluginsMap lib pod resolver m)
    (networkPlugins : List Str) (s : NetworkStatus) :
    (expectedInterface (pod.attachments lib) resolver networkPlugins pod.namespace s).toList.Sublist
        (statusInterfaces m networkPlugins pod.namespace s) ∧
      (statusInterfaces m networkPlugins pod.namespace s =
          (expectedInterface (pod.attachments lib) resolver networkPlugins pod.namespace s).toList ↔
        PlainStatus (pod.attachments lib) resolver networkPlugins pod.namespace s) := by
  rw [statusInterfaces_eq_replicate]
  unfold expectedInterface PlainStatus
  set a := statusAttachment pod.namespace s.name
  -- the map has exactly the attachments that the pod asks for
  by_cases ha : a ∈ pod.attachments lib
  · obtain ⟨t, ht⟩ := Option.isSome_iff_exists.1 (hm.isSome a ha)
    have hresolver := ((hm.lookup a t).1 ht).2
    simp only [ha, ht, hresolver, Option.getD_some, true_and, if_true, Except.toOption,
      Option.mem_some_iff, forall_eq']
    by_cases hplugin : t ∈ networkPlugins
    · have hpos : 0 < networkPlugins.count t := List.count_pos_iff.2 hplugin
      rw [if_pos hplugin, Option.toList_some]
      rw [← List.replicate_one, List.replicate_sublist_replicate, List.replicate_left_inj]
      omega
    · rw [if_neg hplugin, Option.toList_none, List.count_eq_zero_of_not_mem hplugin]
      simp
  · have hnone : m.lookup a = none := by
      rw [Option.eq_none_iff_forall_ne_some]
      intro t ht
      exact ha ((hm.lookup a t).1 ht).1
    have hunexpected : (match resolver a with
        | .error _ => none
        | .ok pluginType =>
          if a ∈ pod.attachments lib ∧ pluginType ∈ networkPlugins then
            some (⟨s.name, s.interface, pluginType, s.ips⟩ : InterfaceInfo)
          else none) = none := by
      cases resolver a with
      | error e => rfl
      | ok t => exact if_neg fun h => ha h.1
    rw [hunexpected, hnone, if_neg ha, Option.getD_none, Option.toList_none,
      List.replicate_eq_nil_iff, List.count_eq_zero]
    exact ⟨List.nil_sublist _, Iff.rfl⟩

/-- **The interfaces of a pod are exact**, one for each status that has an expected interface and
ordered by name, exactly when every status of the pod is plain. -/
theorem interfaces_exact_iff {lib : Library} {pod : Controllers.Pod}
    {criClient : Option RuntimeClient} {hostname : Str} {networkPlugins : List Str}
    {resolver : NetDefResolver} {info : Controllers.PodInfo}
    (htarget : isMultiNetworkpolicyTarget pod = true)
    (h : newPodInfoFromPod lib pod criClient hostname networkPlugins resolver = .ok info) :
    (info.interfaces.Perm ((getNetworkStatus lib pod).filterMap
        (expectedInterface (pod.attachments lib) resolver networkPlugins pod.namespace)) ∧
      info.interfaces.Pairwise fun i j => le i.interfaceName j.interfaceName = true) ↔
      ∀ s ∈ getNetworkStatus lib pod,
        PlainStatus (pod.attachments lib) resolver networkPlugins pod.namespace s := by
  rcases newPodInfoFromPod_eq_ok h with ⟨hnot, -⟩ | ⟨-, m, hm, hinterfaces⟩
  · rw [htarget] at hnot
    cases hnot
  have hspec := statusInterfaces_spec hm networkPlugins
  rw [hinterfaces, and_iff_left (lib.sort_sorted _), (lib.sort_perm _).congr_left,
    List.filterMap_eq_flatMap_toList]
  constructor
  · intro hperm s hs
    have heq := eq_of_length_flatMap (fun s _ => (hspec s).1) hperm.length_eq s hs
    exact (hspec s).2.1 heq
  · intro hplain
    have heq := List.flatMap_congr fun s hs => (hspec s).2.2 (hplain s hs)
    rw [heq]

/-! ### A pod with given statuses -/

/-- The JSON of strings that need no escapes, one after the other. -/
def jsonItems (items : List Str) : Str := (items.intersperse (str ",")).flatten

/-- The JSON of a network status. -/
def NetworkStatus.json (s : NetworkStatus) : Str :=
  str "\x7b\"name\":" ++ quote s.name ++ str ",\"interface\":" ++ quote s.interface ++
    str ",\"ips\":[" ++ jsonItems (s.ips.map quote) ++ str "]\x7d"

/-- The annotation `k8s.v1.cni.cncf.io/network-status`. -/
def statusesJSON (statuses : List NetworkStatus) : Str :=
  str "[" ++ jsonItems (statuses.map NetworkStatus.json) ++ str "]"

theorem statusesJSON_ne_nil (statuses : List NetworkStatus) : [] ≠ statusesJSON statuses := by
  intro h
  have hlen := congrArg List.length h
  simp [statusesJSON, str] at hlen

/-- The library, which reads some statuses from their JSON and nothing from other texts. -/
def reportingLibrary (statuses : List NetworkStatus) : Library where
  networks _ := none
  statuses text := if text = statusesJSON statuses then statuses else []
  statuses_nil := if_neg (statusesJSON_ne_nil statuses)
  containerInfo _ := .noPid
  sortInterfaces l := l.insertionSort fun a b => le a.interfaceName b.interfaceName = true
  sort_perm l := List.perm_insertionSort _ l
  sort_sorted l := by
    have htotal : Std.Total fun a b : InterfaceInfo => le a.interfaceName b.interfaceName = true :=
      ⟨fun a b => total_le a.interfaceName b.interfaceName⟩
    have htrans : IsTrans InterfaceInfo
        fun a b => le a.interfaceName b.interfaceName = true := ⟨fun _ _ _ => trans_le⟩
    exact List.pairwise_insertionSort _ l

/-- A running pod that asks for some networks, and the statuses of these. -/
def requestingPod (networks : Str) (statuses : List NetworkStatus) : Controllers.Pod where
  «namespace» := str "ns"
  name := str "pod"
  labels := []
  annotations := [(networkAttachmentAnnot, networks), (networkStatusAnnot, statusesJSON statuses)]
  nodeName := str "node"
  hostNetwork := false
  phase := .running
  containerStatuses := []
  namespace_valid := isDNS1123Label_ns
  labels_nodup := List.nodup_nil

/-- The default network, and two attachments. -/
def threeStatuses : List NetworkStatus :=
  [⟨str "cbr0", str "eth0", [str "10.244.0.2"]⟩, ⟨str "ns/net2", str "net2", [str "10.2.0.2"]⟩,
    ⟨str "other/net1", str "net1", [str "10.1.0.2"]⟩]

set_option maxRecDepth 10000 in
/-- A pod that asks for two of the three attachments it has. -/
theorem two_attachments_exact :
    ∃ info, newPodInfoFromPod (reportingLibrary threeStatuses)
        (requestingPod (str "net2, other/net1") threeStatuses) none (str "node")
        [str "macvlan", str "ipvlan"]
        (fun _ => .ok (str "macvlan")) = .ok info ∧
      info.interfaces.Perm [⟨str "ns/net2", str "net2", str "macvlan", [str "10.2.0.2"]⟩,
        ⟨str "other/net1", str "net1", str "macvlan", [str "10.1.0.2"]⟩] :=
  ⟨_, rfl, (@interfaces_exact_iff (reportingLibrary threeStatuses)
    (requestingPod (str "net2, other/net1") threeStatuses) none (str "node")
        [str "macvlan", str "ipvlan"]
    (fun _ => .ok (str "macvlan")) _ rfl rfl).2 (by decide +kernel) |>.1⟩

set_option maxRecDepth 10000 in
/-- With `macvlan` listed twice, a status makes two interfaces; with an empty plugin name, the
default network makes one. -/
theorem repeated_plugin_duplicates :
    isMultiNetworkpolicyTarget (requestingPod (str "net2") threeStatuses) = true ∧
      (∃ info, newPodInfoFromPod (reportingLibrary threeStatuses)
        (requestingPod (str "net2") threeStatuses) none
          (str "node") [str "macvlan", str "macvlan"] (fun _ => .ok (str "macvlan")) = .ok info ∧
        info.interfaces =
          List.replicate 2 ⟨str "ns/net2", str "net2", str "macvlan", [str "10.2.0.2"]⟩ ∧
        threeStatuses.filterMap (expectedInterface
            ((requestingPod (str "net2") threeStatuses).attachments
              (reportingLibrary threeStatuses))
            (fun _ => .ok (str "macvlan")) [str "macvlan", str "macvlan"] (str "ns")) =
          [⟨str "ns/net2", str "net2", str "macvlan", [str "10.2.0.2"]⟩]) ∧
      ∃ info, newPodInfoFromPod (reportingLibrary threeStatuses)
        (requestingPod (str "net2") threeStatuses) none
          (str "node") [str "macvlan", []] (fun _ => .ok (str "macvlan")) = .ok info ∧
        info.interfaces.map InterfaceInfo.netattachName =
          [str "cbr0", str "other/net1", str "ns/net2"] :=
  ⟨by decide, ⟨_, rfl, by decide +kernel, by decide +kernel⟩, _, rfl, by decide +kernel⟩

/-! ### Names of attachments -/

/-- One of the elements of a `policy-for` annotation is the full name of the attachment, or its name
alone if it is one of the policy's namespace. -/
def Denotes (policyNamespace annot : Str) (a : NamespacedName) : Prop :=
  ∃ e ∈ split 0x2c (removeAll 0x20 annot),
    e = a.render ∨ e = a.name ∧ a.namespace = policyNamespace

/-- The policies of the pod's namespace select the interface exactly when they denote `a`. -/
def NamesAgree (pod : Controllers.Pod) (i : InterfaceInfo) (a : NamespacedName) : Prop :=
  ∀ policy : MultiNetworkPolicy, policy.namespace = pod.namespace →
    ∀ annot, policy.annotations.lookup policyNetworkAnnotation = some annot →
      (i.checkPolicyNetwork (policyNetworksOf policy annot) = true ↔
        Denotes policy.namespace annot a)

/-- A text that can be an element of a `policy-for` annotation. -/
def Listable (s : Str) : Prop := 0x20 ∉ s ∧ 0x2c ∉ s

instance (s : Str) : Decidable (Listable s) := inferInstanceAs (Decidable (_ ∧ _))

/-- What an annotation lists can be listed. -/
theorem listable_of_mem {annot e : Str} (h : e ∈ split 0x2c (removeAll 0x20 annot)) :
    Listable e := by
  refine ⟨fun hspace => ?_, not_mem_of_mem_split h⟩
  have hkept := mem_of_mem_split h hspace
  rw [removeAll, List.mem_filter] at hkept
  exact absurd hkept.2 (by decide)

/-- A name that can be listed is listed as it is. -/
theorem Listable.split_eq {s : Str} (h : Listable s) : split 0x2c (removeAll 0x20 s) = [s] := by
  have hkept : removeAll 0x20 s = s := by
    refine List.filter_eq_self.2 fun b hb => ?_
    rw [bne_iff_ne]
    rintro rfl
    exact h.1 hb
  rw [hkept, split_of_not_mem h.2]

/-- An interface is selected under the name its status was written with. -/
theorem checkPolicyNetwork_iff {policy : MultiNetworkPolicy} {annot : Str} {i : InterfaceInfo} :
    i.checkPolicyNetwork (policyNetworksOf policy annot) = true ↔
      ∃ e ∈ split 0x2c (removeAll 0x20 annot),
        (if 0x2f ∈ e then e else policy.namespace ++ str "/" ++ e) = i.netattachName := by
  unfold InterfaceInfo.checkPolicyNetwork policyNetworksOf
  simp only [List.any_eq_true, List.mem_insertionSort, List.mem_map, beq_iff_eq]
  constructor
  · rintro ⟨_, ⟨e, he, rfl⟩, hname⟩
    exact ⟨e, he, hname⟩
  · rintro ⟨e, he, hname⟩
    exact ⟨_, ⟨e, he, rfl⟩, hname⟩

/-- Kubernetes names can be listed. -/
theorem not_mem_of_isDNS1123Label {s : Str} (h : isDNS1123Label s = true) :
    Listable s ∧ 0x2f ∉ s := by
  rw [isDNS1123Label, Bool.and_eq_true] at h
  have hchar : ∀ b ∈ s, isNameChar b = true := fun b hb => isNameChar_of_isDNSPart h.2 hb
  exact ⟨⟨fun hb => absurd (hchar _ hb) (by decide), fun hb => absurd (hchar _ hb) (by decide)⟩,
    fun hb => absurd (hchar _ hb) (by decide)⟩

theorem listable_render {a : NamespacedName} :
    Listable a.render ↔ Listable a.namespace ∧ Listable a.name := by
  have hslash : (0x20 : UInt8) ∉ str "/" ∧ (0x2c : UInt8) ∉ str "/" := by decide
  simp only [Listable, NamespacedName.render, List.mem_append, not_or, hslash]
  tauto

theorem slash_mem_render (a : NamespacedName) : 0x2f ∈ a.render :=
  List.mem_append_left _ (List.mem_append_right _ (by decide))

/-- The attachment of a status, as its name is written: with one slash, or without. -/
theorem statusAttachment_cases (podNamespace r : Str) :
    (∃ p q, r = p ++ str "/" ++ q ∧ 0x2f ∉ p ∧ 0x2f ∉ q ∧
      statusAttachment podNamespace r = ⟨trimSpace p, q⟩) ∨
      statusAttachment podNamespace r = ⟨podNamespace, r⟩ := by
  unfold statusAttachment
  split
  · rename_i p q hsplit
    have hjoin := intercalate_split 0x2f r
    rw [hsplit] at hjoin
    have hparts : ∀ part ∈ [p, q], (0x2f : UInt8) ∉ part := fun part hpart =>
      not_mem_of_mem_split (s := r) (by rw [hsplit]; exact hpart)
    have hpair : [(0x2f : UInt8)].intercalate [p, q] = p ++ str "/" ++ q := by
      rw [List.append_assoc]
      simp [List.intercalate]
      rfl
    exact .inl ⟨p, q, by rw [← hpair, hjoin], hparts p (by simp), hparts q (by simp), rfl⟩
  · exact .inr rfl

/-- A name an annotation can list resolves to one that it can list. -/
theorem listable_statusAttachment {podNamespace r : Str} (hns : Listable podNamespace)
    (hr : Listable r) : Listable (statusAttachment podNamespace r).render := by
  rw [listable_render]
  rcases statusAttachment_cases podNamespace r with ⟨p, q, rfl, -, -, hpair⟩ | hwhole
  · rw [hpair]
    simp only [Listable, List.mem_append, not_or] at hr
    have htrim : Listable (trimSpace p) :=
      ⟨fun hb => hr.1.1.1 (mem_of_mem_trimSpace hb), fun hb => hr.2.1.1 (mem_of_mem_trimSpace hb)⟩
    exact ⟨htrim, hr.1.2, hr.2.2⟩
  · rw [hwhole]
    exact ⟨hns, hr⟩

/-- Full names agree. -/
theorem namesAgree_of_eq_render {pod : Controllers.Pod} {i : InterfaceInfo}
    (h : i.netattachName = (statusAttachment pod.namespace i.netattachName).render) :
    NamesAgree pod i (statusAttachment pod.namespace i.netattachName) := by
  intro policy _ annot _
  rw [checkPolicyNetwork_iff, Denotes]
  rcases statusAttachment_cases pod.namespace i.netattachName with ⟨p, q, hr, -, hq, ha⟩ | ha
  · rw [ha] at h ⊢
    have htrim : trimSpace p = p := by
      have heq : trimSpace p ++ str "/" ++ q = p ++ str "/" ++ q := h.symm.trans hr
      exact List.append_cancel_right (List.append_cancel_right heq)
    rw [htrim] at h ⊢
    refine exists_congr fun e => and_congr_right fun _ => ?_
    by_cases hslash : 0x2f ∈ e
    · -- a full name in the annotation
      have hne : e ≠ q := fun heq => hq (heq ▸ hslash)
      rw [if_pos hslash, h, or_iff_left fun hshort => hne hshort.1]
    · -- a name alone, which the policy's namespace is put in front of
      have hne : e ≠ NamespacedName.render ⟨p, q⟩ := by
        rintro rfl
        exact hslash (slash_mem_render _)
      rw [if_neg hslash, or_iff_right hne, hr]
      constructor
      · intro heq
        rw [List.append_assoc, List.append_assoc] at heq
        obtain ⟨hns, hname⟩ := append_sep_inj hslash hq heq
        exact ⟨hname, hns.symm⟩
      · rintro ⟨rfl, rfl⟩
        rfl
  · -- the whole name cannot be its own last part
    have hlen := congrArg List.length h
    have hone : (str "/").length = 1 := rfl
    rw [ha, NamespacedName.render, List.length_append, List.length_append, hone] at hlen
    dsimp only at hlen
    omega

/-- Names that no policy can list agree for want of a policy. -/
theorem namesAgree_of_not_listable {pod : Controllers.Pod} {i : InterfaceInfo}
    (h : ¬ Listable (statusAttachment pod.namespace i.netattachName).render) :
    NamesAgree pod i (statusAttachment pod.namespace i.netattachName) := by
  intro policy hpolicy annot _
  have hns := (not_mem_of_isDNS1123Label policy.namespace_valid).1
  -- neither side holds: both make the resolved name listable
  refine iff_of_false (fun hcheck => ?_) ?_
  · obtain ⟨e, he, hname⟩ := checkPolicyNetwork_iff.1 hcheck
    have hlist := listable_of_mem he
    have hr : Listable i.netattachName := by
      rw [← hname]
      split
      · exact hlist
      · exact (listable_render (a := ⟨policy.namespace, e⟩)).2 ⟨hns, hlist⟩
    exact h (listable_statusAttachment (hpolicy ▸ hns) hr)
  · rintro ⟨e, he, rfl | ⟨rfl, hsame⟩⟩
    · exact h (listable_of_mem he)
    · exact h (listable_render.2 ⟨hsame ▸ hns, listable_of_mem he⟩)

/-- A policy for one network in the namespace of a pod. -/
def policyFor (pod : Controllers.Pod) (annot : Str) : MultiNetworkPolicy where
  «namespace» := pod.namespace
  name := str "policy"
  annotations := [.mk policyNetworkAnnotation annot]
  podSelector := ⟨[], []⟩
  ingress := none
  egress := none
  policyTypes := []
  namespace_valid := pod.namespace_valid
  name_valid := isDNS1123Subdomain_policy

/-- A policy for the resolved name finds the interface only under that name. -/
theorem eq_render_of_namesAgree {pod : Controllers.Pod} {i : InterfaceInfo}
    (h : NamesAgree pod i (statusAttachment pod.namespace i.netattachName))
    (hlist : Listable (statusAttachment pod.namespace i.netattachName).render) :
    i.netattachName = (statusAttachment pod.namespace i.netattachName).render := by
  set a := statusAttachment pod.namespace i.netattachName
  have hdenotes : Denotes pod.namespace a.render a :=
    ⟨a.render, by rw [hlist.split_eq]; exact List.mem_cons_self .., .inl rfl⟩
  have hcheck := (h (policyFor pod a.render) rfl a.render (List.lookup_cons_self ..)).2 hdenotes
  obtain ⟨e, he, hname⟩ := checkPolicyNetwork_iff.1 hcheck
  rw [hlist.split_eq, List.mem_singleton] at he
  rw [he, if_pos (slash_mem_render a)] at hname
  exact hname.symm

/-- **Policies and pods agree on the name of an attachment** exactly when the status of the
interface was written with the resolved name, or the resolved name has a space or a comma, so that
no annotation lists it. -/
theorem attachment_names_agree_iff {lib : Library} {pod : Controllers.Pod}
    {criClient : Option RuntimeClient} {hostname : Str} {networkPlugins : List Str}
    {resolver : NetDefResolver} {info : Controllers.PodInfo}
    (h : newPodInfoFromPod lib pod criClient hostname networkPlugins resolver = .ok info)
    {i : InterfaceInfo} (hi : i ∈ info.interfaces) :
    ∃ s ∈ getNetworkStatus lib pod, i.netattachName = s.name ∧ i.interfaceName = s.interface ∧
      (NamesAgree pod i (statusAttachment pod.namespace s.name) ↔
        s.name = (statusAttachment pod.namespace s.name).render ∨
          ¬ Listable (statusAttachment pod.namespace s.name).render) := by
  -- every interface comes from a status, with its names
  have hsource : ∃ s ∈ getNetworkStatus lib pod, i.netattachName = s.name ∧
      i.interfaceName = s.interface := by
    rcases newPodInfoFromPod_eq_ok h with ⟨-, hnone⟩ | ⟨-, m, -, hinterfaces⟩
    · rw [hnone] at hi
      cases hi
    · rw [hinterfaces, (lib.sort_perm _).mem_iff, List.mem_flatMap] at hi
      obtain ⟨s, hs, hi⟩ := hi
      rw [statusInterfaces_eq_replicate] at hi
      rw [List.eq_of_mem_replicate hi]
      exact ⟨s, hs, rfl, rfl⟩
  obtain ⟨s, hs, hname, hinterface⟩ := hsource
  refine ⟨s, hs, hname, hinterface, ?_⟩
  rw [← hname]
  constructor
  · intro hagree
    by_cases hlist : Listable (statusAttachment pod.namespace i.netattachName).render
    · exact .inl (eq_render_of_namesAgree hagree hlist)
    · exact .inr hlist
  · rintro (heq | hlist)
    · exact namesAgree_of_eq_render heq
    · exact namesAgree_of_not_listable hlist

set_option maxRecDepth 10000 in
/-- A status with a full name. -/
theorem full_name_agrees :
    ∃ info, newPodInfoFromPod (reportingLibrary threeStatuses)
      (requestingPod (str "net2") threeStatuses) none
        (str "node") [str "macvlan"] (fun _ => .ok (str "macvlan")) = .ok info ∧
      ∃ i ∈ info.interfaces,
        NamesAgree (requestingPod (str "net2") threeStatuses) i ⟨str "ns", str "net2"⟩ := by
  refine ⟨_, rfl, ⟨str "ns/net2", str "net2", str "macvlan", [str "10.2.0.2"]⟩,
    by decide +kernel, ?_⟩
  obtain ⟨s, -, hname, -, hagree⟩ := @attachment_names_agree_iff (reportingLibrary threeStatuses)
    (requestingPod (str "net2") threeStatuses) none (str "node") [str "macvlan"]
    (fun _ => .ok (str "macvlan")) _
    rfl ⟨str "ns/net2", str "net2", str "macvlan", [str "10.2.0.2"]⟩ (by decide +kernel)
  rw [← hname] at hagree
  exact hagree.2 (.inl (by decide +kernel))

/-- A status that names its attachment without the namespace. -/
def shortStatus : NetworkStatus := ⟨str "net1", str "net1", [str "10.1.0.2"]⟩

/-- The status names its attachment without the namespace: the interface is looked up as
`ns/net1`, and the policy for `ns/net1` does not select it. -/
theorem short_name_not_selected :
    ∃ info, newPodInfoFromPod
        (reportingLibrary [shortStatus])
        (requestingPod (str "net1") [shortStatus]) none (str "node") [str "macvlan"]
        (fun _ => .ok (str "macvlan")) = .ok info ∧
      ∃ i ∈ info.interfaces,
        statusAttachment (str "ns") i.netattachName = ⟨str "ns", str "net1"⟩ ∧
        i.checkPolicyNetwork (policyNetworksOf (policyFor (requestingPod (str "net1") [shortStatus])
          (str "ns/net1")) (str "ns/net1")) = false ∧
        ¬ NamesAgree (requestingPod (str "net1") [shortStatus]) i ⟨str "ns", str "net1"⟩ := by
  have hunselected : (⟨str "net1", str "net1", str "macvlan", [str "10.1.0.2"]⟩ :
      InterfaceInfo).checkPolicyNetwork
        (policyNetworksOf (policyFor (requestingPod (str "net1") [shortStatus])
        (str "ns/net1")) (str "ns/net1")) = false := by decide +kernel
  refine ⟨_, rfl, ⟨str "net1", str "net1", str "macvlan", [str "10.1.0.2"]⟩, by decide +kernel,
    by decide +kernel, hunselected, fun hagree => ?_⟩
  have hselected := (hagree (policyFor (requestingPod (str "net1") [shortStatus])
      (str "ns/net1")) rfl
    (str "ns/net1") rfl).2 ⟨str "ns/net1", by decide +kernel, .inl (by decide +kernel)⟩
  rw [hunselected] at hselected
  cases hselected

end MultiNetPolicy
