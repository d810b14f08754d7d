import MultiNetPolicy.Controller.Events
import MultiNetPolicy.Equiv.Names
import MultiNetPolicy.Lib.AssocList

/-!
# Updates that are dropped

`PodPredicate` and `PolicyPredicate` drop the updates that do not matter.

* `lookup_eq_of_not_labelsChanged`, `mem_statuses_iff_of_not_changed`: comparing lengths and one
  inclusion is enough for labels and container statuses, which have distinct keys.
* `newPodInfoFromPod_congr`: what the daemon knows of a pod without asking the container runtime
  does not depend on anything that is not compared.
* `selectedInterfaces_congr`: a policy without the annotation `policy-for` and one with an empty
  annotation are the same for the predicate; they select the same interfaces.
-/

namespace MultiNetPolicy

open ByteString Controllers Controller

/-! ### Labels and container statuses -/

/-- Maps that `labelsChanged` cannot tell apart are equal. -/
theorem lookup_eq_of_not_labelsChanged {old new : Labels} (hold : (old.map Prod.fst).Nodup)
    (h : labelsChanged old new = false) (key : Str) : old.lookup key = new.lookup key := by
  rw [labelsChanged, Bool.or_eq_false_iff, bne_eq_false_iff_eq, List.any_eq_false] at h
  have hsub : old ⊆ new := by
    rintro ⟨k, v⟩ hkv
    have hsame := h.2 (k, v) hkv
    rw [bne_iff_ne, not_not] at hsame
    exact AssocList.mem_of_lookup_eq_some hsame
  exact AssocList.lookup_congr hold (AssocList.perm_of_subset hold hsub h.1) key

/-- A selector reads labels by their keys. -/
theorem Selector.isMatch_congr {ls ls' : Labels} (h : ∀ key, ls.lookup key = ls'.lookup key)
    (s : Selector) : Selector.isMatch s ls = Selector.isMatch s ls' := by
  unfold Selector.isMatch LabelSelectorRequirement.isMatch
  simp only [h]

/-- The names and identifiers of containers. -/
def containerIDs (statuses : List ContainerStatus) : List (Str × Str) :=
  statuses.map fun s => (s.name, s.containerID)

/-- Unchanged statuses have the same containers. -/
theorem mem_containerIDs_iff {old new : List ContainerStatus}
    (hnew : (new.map ContainerStatus.name).Nodup) (h : containerStatusesChanged old new = false)
    (p : Str × Str) : p ∈ containerIDs old ↔ p ∈ containerIDs new := by
  rw [containerStatusesChanged, Bool.or_eq_false_iff, bne_eq_false_iff_eq, List.any_eq_false] at h
  have hkeys : ((containerIDs new).map Prod.fst).Nodup := by
    rw [containerIDs, List.map_map]
    exact hnew
  have hsub : containerIDs new ⊆ containerIDs old := by
    intro q hq
    obtain ⟨s, hs, rfl⟩ := List.mem_map.1 hq
    have hsame := h.2 s hs
    rw [bne_iff_ne, not_not] at hsame
    exact List.mem_reverse.1 (AssocList.mem_of_lookup_eq_some hsame)
  have hlen : (containerIDs new).length = (containerIDs old).length := by
    rw [containerIDs, containerIDs, List.length_map, List.length_map, h.1]
  exact (AssocList.perm_of_subset hkeys hsub hlen).mem_iff.symm

/-! ### Pods -/

/-- Two versions of a pod that differ in where the pod runs, in its labels or in what the daemon
does not read of it. -/
structure SameNetworks (old new : Controllers.Pod) : Prop where
  «namespace» : old.namespace = new.namespace
  name : old.name = new.name
  hostNetwork : old.hostNetwork = new.hostNetwork
  phase : old.phase = new.phase
  networks : mapGet old.annotations networkAttachmentAnnot =
    mapGet new.annotations networkAttachmentAnnot
  statuses : mapGet old.annotations networkStatusAnnot = mapGet new.annotations networkStatusAnnot

/-- A missing annotation reads like an empty one. -/
theorem getNetworkStatus_eq (lib : Library) (pod : Controllers.Pod) :
    getNetworkStatus lib pod = lib.statuses (mapGet pod.annotations networkStatusAnnot) := by
  unfold getNetworkStatus mapGet
  cases pod.annotations.lookup networkStatusAnnot with
  | none => exact lib.statuses_nil.symm
  | some text => rfl

/-- Without a runtime client the network namespace is not looked up. -/
theorem readNetworks_none (lib : Library) (pod : Controllers.Pod) (hostname : Str)
    (networkPlugins : List Str) (resolver : NetDefResolver) :
    readNetworks lib pod none hostname networkPlugins resolver =
      (fillPluginsMap resolver pod.namespace []
        ((Except.toOption <| parsePodNetworkAnnotation lib pod).getD [])).map fun m =>
          (getNetworkStatus lib pod, (getNetworkStatus lib pod).flatMap
            (statusInterfaces m networkPlugins pod.namespace), []) := by
  unfold readNetworks
  dsimp only
  cases fillPluginsMap resolver pod.namespace []
      ((Except.toOption <| parsePodNetworkAnnotation lib pod).getD []) with
  | error e => rfl
  | ok m =>
    simp only [bind, Except.bind, Except.map]
    exact if_neg fun h => absurd h.2.2 (by decide)

theorem nodeName_newPodInfoFromPod {lib : Library} {pod : Controllers.Pod}
    {criClient : Option RuntimeClient} {hostname : Str} {networkPlugins : List Str}
    {resolver : NetDefResolver} {info : Controllers.PodInfo}
    (h : newPodInfoFromPod lib pod criClient hostname networkPlugins resolver = .ok info) :
    info.nodeName = pod.nodeName := by
  unfold newPodInfoFromPod at h
  split at h
  · cases hread : readNetworks lib pod criClient hostname networkPlugins resolver with
    | error e =>
      rw [hread] at h
      cases h
    | ok networks =>
      rw [hread] at h
      cases h
      rfl
  · cases h
    rfl

/-- Without a runtime client, only the name of the node tells where a pod runs. -/
theorem newPodInfoFromPod_congr {old new : Controllers.Pod} (h : SameNetworks old new)
    (lib : Library) (hostname : Str) (networkPlugins : List Str) (resolver : NetDefResolver) :
    newPodInfoFromPod lib new none hostname networkPlugins resolver =
      (newPodInfoFromPod lib old none hostname networkPlugins resolver).map fun info =>
        { info with nodeName := new.nodeName } := by
  have hnetworks : parsePodNetworkAnnotation lib old = parsePodNetworkAnnotation lib new := by
    unfold parsePodNetworkAnnotation
    rw [h.networks, h.namespace]
  have htarget : isMultiNetworkpolicyTarget old = isMultiNetworkpolicyTarget new := by
    unfold isMultiNetworkpolicyTarget
    rw [h.phase, h.hostNetwork]
  unfold newPodInfoFromPod
  rw [readNetworks_none, readNetworks_none, hnetworks, getNetworkStatus_eq, getNetworkStatus_eq,
    h.statuses, h.namespace, h.name, htarget]
  split
  · cases fillPluginsMap resolver new.namespace []
        ((Except.toOption <| parsePodNetworkAnnotation lib new).getD []) with
    | error e => rfl
    | ok m => rfl
  · rfl

/-- An update that is not acted on changes no interface. -/
theorem sameNetworks_of_not_podUpdate {old new : Controllers.Pod}
    (hnamespace : old.namespace = new.namespace) (hname : old.name = new.name)
    (hhost : old.hostNetwork = new.hostNetwork) (h : podUpdate old new = false) :
    SameNetworks old new ∧ old.nodeName = new.nodeName ∧
      labelsChanged old.labels new.labels = false ∧
      containerStatusesChanged old.containerStatuses new.containerStatuses = false := by
  simp only [podUpdate, Bool.or_eq_false_iff, bne_eq_false_iff_eq, networkAnnotationsChanged,
    networkAnnotationKeys, List.any_cons, List.any_nil, and_true] at h
  obtain ⟨⟨⟨⟨hphase, hnode⟩, hlabels⟩, hcontainers⟩, hstatuses, hnetworks⟩ := h
  exact ⟨⟨hnamespace, hname, hhost, hphase, hnetworks, hstatuses⟩, hnode, hlabels, hcontainers⟩

/-! ### Policies -/

/-- The spec of two policies is the same. -/
structure SameSpec (p q : MultiNetworkPolicy) : Prop where
  podSelector : p.podSelector = q.podSelector
  ingress : p.ingress = q.ingress
  egress : p.egress = q.egress
  policyTypes : p.policyTypes = q.policyTypes

/-- The interfaces of a pod that `ApplyPolicyRulesForPodAndFamily` renders a policy for. -/
def selectedInterfaces (pod : Pod) (podInfo : PodInfo) (policy : MultiNetworkPolicy) :
    List InterfaceInfo :=
  match applicable pod podInfo policy with
  | none => []
  | some p => podInfo.interfaces.filter fun i => i.checkPolicyNetwork p.policyNetworks

/-- Without interfaces on its networks, a policy does not apply; otherwise its interfaces are those
on the networks of its annotation. -/
theorem selectedInterfaces_eq (pod : Pod) (podInfo : PodInfo) (policy : MultiNetworkPolicy) :
    selectedInterfaces pod podInfo policy =
      if policy.namespace = pod.namespace ∧ podSelected pod policy = true then
        match policy.annotations.lookup policyNetworkAnnotation with
        | none => []
        | some annot =>
          podInfo.interfaces.filter fun i => i.checkPolicyNetwork (policyNetworksOf policy annot)
      else [] := by
  unfold selectedInterfaces applicable
  split_ifs with hselected
  · cases policy.annotations.lookup policyNetworkAnnotation with
    | none => rfl
    | some annot =>
      dsimp only
      split_ifs with hcheck
      · rfl
      · rw [PodInfo.checkPolicyNetwork, List.any_eq_true] at hcheck
        refine (List.filter_eq_nil_iff.2 fun i hi hnetwork => hcheck ⟨i, hi, hnetwork⟩).symm
  · rfl

/-- An empty annotation stands for the attachment with the empty name. -/
theorem checkPolicyNetwork_empty {policy : MultiNetworkPolicy} {i : InterfaceInfo}
    (hi : i.netattachName.getLast? ≠ some 0x2f) :
    i.checkPolicyNetwork (policyNetworksOf policy []) = false := by
  have hnetworks : policyNetworksOf policy [] = [policy.namespace ++ str "/"] := by
    simp [policyNetworksOf, removeAll, split]
  rw [hnetworks, InterfaceInfo.checkPolicyNetwork, List.any_cons, List.any_nil, Bool.or_false,
    beq_eq_false_iff_ne]
  intro heq
  have hslash : str "/" = [0x2f] := by decide
  rw [← heq, hslash, List.getLast?_concat] at hi
  exact hi rfl

/-- A policy that is not acted on selects the same interfaces. -/
theorem selectedInterfaces_congr {old new : MultiNetworkPolicy}
    (hnamespace : old.namespace = new.namespace) (hspec : SameSpec old new)
    (hannot : policyNetworkAnnotationChanged old.annotations new.annotations = false) (pod : Pod)
    {podInfo : PodInfo} (hinfo : ∀ i ∈ podInfo.interfaces, i.netattachName.getLast? ≠ some 0x2f) :
    selectedInterfaces pod podInfo old = selectedInterfaces pod podInfo new := by
  have hselected : podSelected pod old = podSelected pod new := by
    unfold podSelected
    rw [hspec.podSelector]
  have hnetworks : ∀ annot, policyNetworksOf old annot = policyNetworksOf new annot := by
    intro annot
    unfold policyNetworksOf
    rw [hnamespace]
  have hempty : ∀ policy : MultiNetworkPolicy, (podInfo.interfaces.filter fun i =>
      i.checkPolicyNetwork (policyNetworksOf policy [])) = [] := fun policy =>
    List.filter_eq_nil_iff.2 fun i hi => by rw [checkPolicyNetwork_empty (hinfo i hi)]; decide
  rw [policyNetworkAnnotationChanged, bne_eq_false_iff_eq] at hannot
  rw [selectedInterfaces_eq, selectedInterfaces_eq, hselected, hnamespace]
  congr 1
  unfold mapGet at hannot
  -- only a missing annotation on one side and an empty one on the other differ
  cases hold : old.annotations.lookup policyNetworkAnnotation with
  | none =>
    cases hnew : new.annotations.lookup policyNetworkAnnotation with
    | none => rfl
    | some annot =>
      rw [hold, hnew] at hannot
      obtain rfl : [] = annot := hannot
      exact (hempty new).symm
  | some annot =>
    cases hnew : new.annotations.lookup policyNetworkAnnotation with
    | none =>
      rw [hold, hnew] at hannot
      obtain rfl : annot = [] := hannot
      exact hempty old
    | some annot' =>
      rw [hold, hnew] at hannot
      obtain rfl : annot = annot' := hannot
      dsimp only
      rw [hnetworks]

/-! ### Dropped updates -/

/-- **No update that matters is dropped.**  The API server counts the generation of a policy up with
every change of its spec. -/
theorem dropped_updates_do_not_matter :
    (∀ oldPod newPod : Controllers.Pod, oldPod.namespace = newPod.namespace →
      oldPod.name = newPod.name → oldPod.hostNetwork = newPod.hostNetwork →
      (oldPod.containerStatuses.map ContainerStatus.name).Nodup →
      (newPod.containerStatuses.map ContainerStatus.name).Nodup →
      podPredicate (.update oldPod newPod) = false →
        (∀ (lib : Library) (hostname : Str) (networkPlugins : List Str) (resolver : NetDefResolver),
          (newPodInfoFromPod lib oldPod none hostname networkPlugins resolver).map
              (fun info => (info.interfaces, info.networkStatus, info.nodeName)) =
            (newPodInfoFromPod lib newPod none hostname networkPlugins resolver).map
              fun info => (info.interfaces, info.networkStatus, info.nodeName)) ∧
        (∀ s : Selector, Selector.isMatch s oldPod.labels = Selector.isMatch s newPod.labels) ∧
        ∀ p, p ∈ containerIDs oldPod.containerStatuses ↔
          p ∈ containerIDs newPod.containerStatuses) ∧
    (∀ oldPolicy newPolicy : VersionedPolicy, oldPolicy.namespace = newPolicy.namespace →
      (oldPolicy.generation = newPolicy.generation →
        SameSpec oldPolicy.toMultiNetworkPolicy newPolicy.toMultiNetworkPolicy) →
      policyPredicate (.update oldPolicy newPolicy) = false →
        ∀ (pod : Pod) (podInfo : PodInfo),
          (∀ i ∈ podInfo.interfaces, i.netattachName.getLast? ≠ some 0x2f) →
            selectedInterfaces pod podInfo oldPolicy.toMultiNetworkPolicy =
              selectedInterfaces pod podInfo newPolicy.toMultiNetworkPolicy) := by
  constructor
  · intro oldPod newPod hnamespace hname hhost _ hcontainers hdropped
    -- every field that is read is among those the predicate compares
    obtain ⟨hsame, hnode, hlabels, hstatuses⟩ :=
      sameNetworks_of_not_podUpdate hnamespace hname hhost hdropped
    refine ⟨fun lib hostname networkPlugins resolver => ?_, fun s => ?_,
      mem_containerIDs_iff hcontainers hstatuses⟩
    · rw [newPodInfoFromPod_congr hsame, ← hnode]
      cases hinfo : newPodInfoFromPod lib oldPod none hostname networkPlugins resolver with
      | error e => rfl
      | ok info => rw [← nodeName_newPodInfoFromPod hinfo, Except.map, Except.map, Except.map]
    · exact Selector.isMatch_congr (lookup_eq_of_not_labelsChanged oldPod.labels_nodup hlabels) s
  · intro oldPolicy newPolicy hnamespace hbumped hdropped pod podInfo hinfo
    rw [policyPredicate, policyUpdate, Bool.or_eq_false_iff, bne_eq_false_iff_eq] at hdropped
    exact selectedInterfaces_congr hnamespace (hbumped hdropped.1) hdropped.2 pod hinfo

/-- A pod with two labels, two containers and a note. -/
def notedPod (labels : Labels) (hlabels : (labels.map Prod.fst).Nodup)
    (containerStatuses : List ContainerStatus) (note : Str) : Controllers.Pod where
  «namespace» := str "ns"
  name := str "pod"
  labels := labels
  annotations := [(str "note", note), (networkAttachmentAnnot, str "net1")]
  nodeName := str "node"
  hostNetwork := false
  phase := .running
  containerStatuses := containerStatuses
  namespace_valid := isDNS1123Label_ns
  labels_nodup := hlabels

/-- A policy for all pods of `ns` with some annotations. -/
def annotatedPolicy (annotations : List (Str × Str)) : VersionedPolicy where
  «namespace» := str "ns"
  name := str "policy"
  annotations := annotations
  podSelector := ⟨[], []⟩
  ingress := some []
  egress := none
  policyTypes := []
  namespace_valid := isDNS1123Label_ns
  name_valid := isDNS1123Subdomain_policy
  generation := 1

theorem reordered_pod_is_same :
    (∀ s : Selector,
      Selector.isMatch s [(str "app", str "a"), (str "tier", str "t")] =
        Selector.isMatch s [(str "tier", str "t"), (str "app", str "a")]) ∧
      ∀ (pod : Pod) (podInfo : PodInfo),
        (∀ i ∈ podInfo.interfaces, i.netattachName.getLast? ≠ some 0x2f) →
          selectedInterfaces pod podInfo (annotatedPolicy []).toMultiNetworkPolicy =
            selectedInterfaces pod podInfo
              (annotatedPolicy [.mk policyNetworkAnnotation []]).toMultiNetworkPolicy :=
  ⟨(dropped_updates_do_not_matter.1
      (notedPod [(str "app", str "a"), (str "tier", str "t")] (by decide)
        [⟨str "c1", str "cri://1", true⟩, ⟨str "c2", str "cri://2", true⟩] (str "old"))
      (notedPod [(str "tier", str "t"), (str "app", str "a")] (by decide)
        [⟨str "c2", str "cri://2", true⟩, ⟨str "c1", str "cri://1", false⟩] (str "new"))
      rfl rfl rfl (by decide) (by decide) (by decide +kernel)).2.1,
    dropped_updates_do_not_matter.2 (annotatedPolicy [])
      (annotatedPolicy [.mk policyNetworkAnnotation []]) rfl (fun _ => ⟨rfl, rfl, rfl, rfl⟩)
      (by decide +kernel)⟩

end MultiNetPolicy
