import MultiNetPolicy.Equiv.Effect
import MultiNetPolicy.Equiv.Peering
import MultiNetPolicy.Lib.Keyed

/-!
# The pods of a node

`Reconcile` goes over the pods of its node and works in the network namespace of each.  When no two
of these pods share a namespace, the loop is a list of tasks on the rulesets (`podTask`), and what
it does to one pod does not depend on the others, as long as no pod panics.

* `reconcileNode_per_pod`: the rulesets and the errors are those of the pods on their own, up to the
  first pod that panics.
* `node_verdict`: two reconciles of a node that report nothing about a pod, and any number of
  further ones, leave the policies of the cluster in force for that pod, whatever happens to the
  other pods and in whatever orders each reconcile meets the policies, the pods and the maps.
-/

namespace MultiNetPolicy.Controller

open ByteString Controllers Keyed

/-! ### A node with two pods -/

/-- A policy of the namespace `ns` that lets the pod `db` in. -/
def dbPolicy : MultiNetworkPolicy :=
  { ingressPolicy (str "p") isDNS1123Subdomain_p (str "net1") [⟨[], [dbPeer]⟩] with
    «namespace» := str "ns"
    namespace_valid := isDNS1123Label_ns }

theorem isDNS1123Subdomain_q : isDNS1123Subdomain (str "q") = true := by decide

/-- A policy of the namespace `ns` without rules. -/
def closingPolicy : MultiNetworkPolicy :=
  { ingressPolicy (str "q") isDNS1123Subdomain_q (str "net1") [] with
    «namespace» := str "ns"
    namespace_valid := isDNS1123Label_ns }

theorem nodup_webAndDb : [(str "ns", str "web"), (str "ns", str "db")].Nodup := by decide

/-- The two policies have different names. -/
theorem nodup_policies :
    ([dbPolicy, closingPolicy].map fun p => (p.namespace, p.name)).Nodup := by decide

/-- The pods `web` and `db` run on `n1`, each in its own network namespace. -/
def twoPodNode : NodeReconciler :=
  let node := firstNode
    [pinnedPod (str "web") (str "10.0.0.1") (str "n1") [⟨str "c", str "cri://1", true⟩],
      pinnedPod (str "db") (str "10.0.0.5") (str "n1") [⟨str "c", str "cri://2", true⟩]]
    nodup_webAndDb
  { node with
    client :=
      { node.client with
        listPolicies := .ok [dbPolicy, closingPolicy]
        policies_nodup := fun _ h => by cases h; exact nodup_policies }
    criClient := some ⟨fun id => .ok [(str "info", id)]⟩
    library :=
      { addressLibrary with containerInfo := fun text => .pid (if text = str "1" then 1 else 2) } }

/-- Network namespaces for both pods, the second of which cannot be worked in. -/
def halfHost : NodeHost where
  openNftables path := if path = str "/proc/2/ns/net" then .error .library else .ok ()
  host _ := Host.reliable

def twoNamespaces : NetNamespaces := fun path =>
  if path = str "/proc/1/ns/net" ∨ path = str "/proc/2/ns/net" then some Kernel.empty else none

/-- Everything in the order in which it is stored. -/
def storedOrder : ReconcileOrder where
  policies := ⟨id, .refl⟩
  pods := ⟨id, .refl⟩
  run _ := ⟨insertionOrder, ⟨id, .refl⟩, fun _ => ⟨id, .refl⟩⟩

/-- Everything the other way round. -/
def reverseOrder : ReconcileOrder where
  policies := ⟨List.reverse, List.reverse_perm⟩
  pods := ⟨List.reverse, List.reverse_perm⟩
  run _ :=
    { mapRange := fun _ _ _ keys => keys.reverse
      mapRange_perm := fun _ _ _ keys => keys.reverse_perm
      policyRange := ⟨id, .refl⟩
      listPods := fun _ => ⟨List.reverse, List.reverse_perm⟩ }

/-! ### The loop as a list of tasks -/

/-- `applyRulesForPod`, on the ruleset of its network namespace. -/
def runAt (env : NodeHost) (i : Input) (netnsPath : Str) :
    Option Kernel → Option Error × Option Kernel
  | none => (some (.wrap (str "cannot get " ++ (str "pod (" ++ podNamespacedName i.pod ++ str ")")
      ++ str " netns (" ++ netnsPath ++ str ")") .library), none)
  | some kernel =>
    match env.openNftables netnsPath with
    | .error e => (some (.wrap (str "failed to open nftables for " ++
        (str "pod (" ++ podNamespacedName i.pod ++ str ")")) e), some kernel)
    | .ok () =>
      match applyPolicyRulesForPodAndFamily (env.host netnsPath) i (.new kernel) with
      | .ok _ s => (none, some s.kernel)
      | .error e s => (some e, some s.kernel)

/-- A pod changes its own ruleset only. -/
theorem applyRulesForPod_eq (env : NodeHost) (i : Input) (netnsPath : Str) (netns : NetNamespaces) :
    applyRulesForPod env i netnsPath netns = ((runAt env i netnsPath (netns netnsPath)).1,
      Function.update netns netnsPath (runAt env i netnsPath (netns netnsPath)).2) := by
  have hself := Function.update_eq_self netnsPath netns
  unfold applyRulesForPod
  cases hkernel : netns netnsPath with
  | none =>
    rw [hkernel] at hself
    exact Prod.ext rfl hself.symm
  | some kernel =>
    rw [hkernel] at hself
    cases hopen : env.openNftables netnsPath with
    | error e =>
      have hrun : runAt env i netnsPath (some kernel) = (some (.wrap
          (str "failed to open nftables for " ++ (str "pod (" ++
            podNamespacedName i.pod ++ str ")"))
          e), some kernel) := by
        simp only [runAt, hopen]
      rw [hrun]
      exact Prod.ext rfl hself.symm
    | ok u =>
      cases u
      simp only [runAt, hopen]
      cases applyPolicyRulesForPodAndFamily (env.host netnsPath) i (.new kernel) <;> rfl

namespace NodeReconciler

/-- What the rules of a pod are rendered from. -/
def inputFor (r : NodeReconciler) (orders : Controllers.Pod → RunOrder) (policyMap : PolicyMap)
    (pod : Controllers.Pod) (podInfo : Controllers.PodInfo) : Input :=
  ⟨r.runDeps (orders pod), r.commonCfg, (orders pod).policyMap policyMap, pod.toPod,
    podInfo.toPodInfo⟩

/-- The namespace that `Reconcile` works in for a pod. -/
def pathFor (r : NodeReconciler) (podInfo : Controllers.PodInfo) : Str :=
  hostPath r.hostPrefix podInfo.netNSPath

/-- What is known of a pod that `Reconcile` applies policies to. -/
def served? (r : NodeReconciler) (pod : Controllers.Pod) : Option Controllers.PodInfo :=
  if isMultiNetworkpolicyTarget pod then
    (r.getPodInfo pod).toOption.filter fun podInfo => podInfo.interfaces.length != 0
  else none

/-- What `Reconcile` reports of a pod whose rules could not be applied. -/
def reportOf (pod : Controllers.Pod) (e : Error) : Error :=
  e.within (str "apply rules for " ++ podNamespacedName pod.toPod)

/-- One pod of the loop. -/
def podTask (r : NodeReconciler) (orders : Controllers.Pod → RunOrder) (env : NodeHost)
    (policyMap : PolicyMap) (pod : Controllers.Pod) : Task Str (Option Kernel) Error :=
  if !isMultiNetworkpolicyTarget pod then .report []
  else
    match r.getPodInfo pod with
    | .error e => .report [.wrap (str "get pod info for " ++ podNamespacedName pod.toPod) e]
    | .ok podInfo =>
      if podInfo.interfaces.length = 0 then .report []
      else .work (r.pathFor podInfo) fun v =>
        (((runAt env (r.inputFor orders policyMap pod podInfo) (r.pathFor podInfo) v).1.map
          (reportOf pod)).toList,
        (runAt env (r.inputFor orders policyMap pod podInfo) (r.pathFor podInfo) v).2)

section Loop

variable (r : NodeReconciler) (orders : Controllers.Pod → RunOrder) (env : NodeHost)
  (policyMap : PolicyMap)

/-- What is done for a pod is a task. -/
theorem reconcilePod_eq (st : List Error × NetNamespaces) (pod : Controllers.Pod) :
    r.reconcilePod orders env policyMap st pod = (r.podTask orders env policyMap pod).run st := by
  have hnothing : Task.run (.report []) st = st := Prod.ext (List.append_nil st.1) rfl
  unfold reconcilePod podTask
  cases isMultiNetworkpolicyTarget pod with
  | false => exact hnothing.symm
  | true =>
    simp only [Bool.not_true, Bool.false_eq_true, if_false]
    cases r.getPodInfo pod with
    | error e => rfl
    | ok podInfo =>
      simp only
      split
      · exact hnothing.symm
      · have happly := applyRulesForPod_eq env (r.inputFor orders policyMap pod podInfo)
          (r.pathFor podInfo) st.2
        unfold inputFor pathFor at happly ⊢
        rw [happly]
        split <;> rename_i heq <;> obtain ⟨herr, rfl⟩ := Prod.mk.inj heq <;>
          simp [Task.run, herr, reportOf]

/-- What is done for all pods is a list of tasks, until one panics. -/
theorem reconcilePods_eq (pods : List Controllers.Pod) (st : List Error × NetNamespaces) :
    r.reconcilePods orders env policyMap pods st =
      runUntil .panicked (pods.map (r.podTask orders env policyMap)) st := by
  induction pods generalizing st with
  | nil => rfl
  | cons pod pods ih => rw [reconcilePods, List.map_cons, runUntil, reconcilePod_eq, ih]

/-- The task of a pod works in the namespace of the pod. -/
theorem key?_podTask (pod : Controllers.Pod) :
    (r.podTask orders env policyMap pod).key? = (r.served? pod).map r.pathFor := by
  unfold podTask served?
  cases isMultiNetworkpolicyTarget pod with
  | false => rfl
  | true =>
    cases r.getPodInfo pod with
    | error e => rfl
    | ok podInfo =>
      show (if podInfo.interfaces.length = 0 then (.report [] : Task Str (Option Kernel) Error)
        else _).key? = ((some podInfo).filter fun podInfo => podInfo.interfaces.length != 0).map _
      rw [Option.filter_some]
      by_cases hlen : podInfo.interfaces.length = 0
      · simp [hlen, Task.key?]
      · simp [hlen, Task.key?]

end Loop

/-- The network namespaces that the pods of the node are served in. -/
def paths (r : NodeReconciler) (pods : List Controllers.Pod) : List Str :=
  (r.localPods pods).filterMap fun pod => (r.served? pod).map r.pathFor

/-- What a reconcile of the pod alone would report and leave. -/
def alone (r : NodeReconciler) (policies : List MultiNetworkPolicy) (order : ReconcileOrder)
    (env : NodeHost) (netns : NetNamespaces) (pod : Controllers.Pod) :
    List Error × NetNamespaces :=
  r.reconcilePod order.run env (buildPolicyMap (order.policies.arrange policies)) ([], netns) pod

/-- The pods that a reconcile comes to: up to the first that panics. -/
def visited (r : NodeReconciler) (policies : List MultiNetworkPolicy) (pods : List Controllers.Pod)
    (order : ReconcileOrder) (env : NodeHost) (netns : NetNamespaces) : List Controllers.Pod :=
  upTo (fun pod => decide (.panicked ∈ (r.alone policies order env netns pod).1))
    (r.localPods (order.pods.arrange pods))

section Node

variable {r : NodeReconciler} {policies : List MultiNetworkPolicy} {pods : List Controllers.Pod}
  {pod : Controllers.Pod} {podInfo : Controllers.PodInfo}

/-- The tasks of a reconcile. -/
def tasks (r : NodeReconciler) (policies : List MultiNetworkPolicy) (pods : List Controllers.Pod)
    (order : ReconcileOrder) (env : NodeHost) : List (Task Str (Option Kernel) Error) :=
  (r.localPods (order.pods.arrange pods)).map
    (r.podTask order.run env (buildPolicyMap (order.policies.arrange policies)))

theorem filterMap_key?_map_podTask (orders : Controllers.Pod → RunOrder) (env : NodeHost)
    (policyMap : PolicyMap) (l : List Controllers.Pod) :
    (l.map (r.podTask orders env policyMap)).filterMap Task.key? =
      l.filterMap fun pod => (r.served? pod).map r.pathFor := by
  rw [List.filterMap_map]
  exact List.filterMap_congr fun pod _ => r.key?_podTask orders env policyMap pod

theorem localPods_perm (r : NodeReconciler) (order : ReconcileOrder) (pods : List Controllers.Pod) :
    (r.localPods (order.pods.arrange pods)).Perm (r.localPods pods) :=
  (order.pods.perm pods).filter _

variable (policies) in
/-- Tasks work in different namespaces, in whatever order. -/
theorem nodup_keys_tasks (hnd : (r.paths pods).Nodup) (order : ReconcileOrder) (env : NodeHost) :
    ((r.tasks policies pods order env).filterMap Task.key?).Nodup := by
  rw [tasks, filterMap_key?_map_podTask]
  exact ((r.localPods_perm order pods).filterMap _).nodup_iff.2 hnd

/-- What the task of a pod reports is what reconciling it alone reports. -/
theorem alone_fst (r : NodeReconciler) (policies : List MultiNetworkPolicy) (order : ReconcileOrder)
    (env : NodeHost) (netns : NetNamespaces) (pod : Controllers.Pod) :
    (r.alone policies order env netns pod).1 = (r.podTask order.run env
      (buildPolicyMap (order.policies.arrange policies)) pod).reports netns := by
  rw [alone, reconcilePod_eq, Task.run_fst, List.nil_append]

/-- The tasks that are reached are those of the pods that are. -/
theorem reached_tasks (order : ReconcileOrder) (env : NodeHost) (netns : NetNamespaces) :
    reached .panicked netns (r.tasks policies pods order env) =
      (r.visited policies pods order env netns).map
        (r.podTask order.run env (buildPolicyMap (order.policies.arrange policies))) := by
  rw [reached, tasks, upTo_map, visited]
  refine congrArg _ (upTo_congr fun pod _ => ?_)
  rw [alone_fst]
  rfl

/-- The task of a pod that is served. -/
theorem podTask_of_served (hserved : r.served? pod = some podInfo)
    (orders : Controllers.Pod → RunOrder) (env : NodeHost) (policyMap : PolicyMap) :
    r.podTask orders env policyMap pod = .work (r.pathFor podInfo) fun v =>
      (((runAt env (r.inputFor orders policyMap pod podInfo) (r.pathFor podInfo) v).1.map
        (reportOf pod)).toList,
      (runAt env (r.inputFor orders policyMap pod podInfo) (r.pathFor podInfo) v).2) := by
  unfold served? at hserved
  split at hserved
  · rename_i htarget
    obtain ⟨hinfo, hlen⟩ := Option.filter_eq_some_iff.1 hserved
    rw [bne_iff_ne] at hlen
    have hok : r.getPodInfo pod = .ok podInfo := by
      cases hget : r.getPodInfo pod with
      | error e =>
        rw [hget] at hinfo
        cases hinfo
      | ok x =>
        rw [hget] at hinfo
        exact congrArg _ (Option.some.inj hinfo)
    rw [podTask, htarget, hok]
    simp only [Bool.not_true, Bool.false_eq_true, if_false, if_neg hlen]
  · cases hserved

variable (hpolicies : r.client.listPolicies = .ok policies) (hpods : r.client.listPods = .ok pods)
include hpolicies hpods

theorem reconcileNode_eq (order : ReconcileOrder) (env : NodeHost) (netns : NetNamespaces) :
    r.reconcileNode order env netns =
      runUntil .panicked (r.tasks policies pods order env) ([], netns) := by
  rw [reconcileNode, hpolicies, hpods]
  exact r.reconcilePods_eq order.run env _ _ _

variable (hnd : (r.paths pods).Nodup)
include hnd

/-- What is reported. -/
theorem reconcileNode_errors (order : ReconcileOrder) (env : NodeHost) (netns : NetNamespaces) :
    (r.reconcileNode order env netns).1 =
      if ∃ pod ∈ r.localPods pods, .panicked ∈ (r.alone policies order env netns pod).1 then
        [.panicked]
      else (r.localPods (order.pods.arrange pods)).flatMap fun pod =>
        (r.alone policies order env netns pod).1 := by
  rw [reconcileNode_eq hpolicies hpods, runUntil_reports (nodup_keys_tasks policies hnd order env)
    List.not_mem_nil]
  have hsome : (∃ t ∈ r.tasks policies pods order env, .panicked ∈ t.reports netns) ↔
      ∃ pod ∈ r.localPods pods, .panicked ∈ (r.alone policies order env netns pod).1 := by
    simp only [tasks, List.mem_map, exists_exists_and_eq_and, alone_fst,
      (r.localPods_perm order pods).mem_iff]
  rw [if_congr hsome rfl rfl, List.nil_append, tasks, List.flatMap_map]
  simp only [alone_fst]

/-- The ruleset of a pod that is reached. -/
theorem reconcileNode_of_visited {order : ReconcileOrder} {env : NodeHost} {netns : NetNamespaces}
    (hpod : pod ∈ r.visited policies pods order env netns)
    (hserved : r.served? pod = some podInfo) :
    (r.reconcileNode order env netns).2 (r.pathFor podInfo) =
      (r.alone policies order env netns pod).2 (r.pathFor podInfo) := by
  have htask := podTask_of_served hserved order.run env
    (buildPolicyMap (order.policies.arrange policies))
  have hkeys := nodup_keys_tasks policies hnd order env
  have hmem := List.mem_map_of_mem (f := r.podTask order.run env
    (buildPolicyMap (order.policies.arrange policies))) hpod
  rw [← reached_tasks, htask] at hmem
  have hreached : ((reached .panicked netns (r.tasks policies pods order env)).filterMap
      Task.key?).Nodup := hkeys.sublist ((upTo_sublist _ _).filterMap _)
  rw [reconcileNode_eq hpolicies hpods, runUntil_store hkeys List.not_mem_nil,
    runAll_of_mem hreached hmem, alone, reconcilePod_eq, htask, Task.run_work]

/-- Other rulesets stay as they are. -/
theorem reconcileNode_of_not_visited {order : ReconcileOrder} {env : NodeHost}
    {netns : NetNamespaces} {path : Str}
    (hpath : path ∉ (r.visited policies pods order env netns).filterMap fun pod =>
      (r.served? pod).map r.pathFor) :
    (r.reconcileNode order env netns).2 path = netns path := by
  rw [reconcileNode_eq hpolicies hpods,
    runUntil_store (nodup_keys_tasks policies hnd order env) List.not_mem_nil]
  refine runAll_of_not_mem ?_
  rw [reached_tasks, filterMap_key?_map_podTask]
  exact hpath

omit hpolicies hpods hnd in
/-- A reconcile that goes through, and reports nothing about the rules of a pod. -/
def QuietFor (pod : Controllers.Pod) (errors : List Error) : Prop :=
  .panicked ∉ errors ∧
    ∀ e, .wrap (str "apply rules for " ++ podNamespacedName pod.toPod) e ∉ errors

omit hpolicies hpods hnd in
/-- Nothing is reported about the pod. -/
theorem QuietFor.not_mem {errors : List Error} (h : QuietFor pod errors) (e : Error) :
    reportOf pod e ∉ errors := by
  cases e with
  | panicked => exact h.1
  | _ => exact h.2 _

/-- The input of a run for a pod in a reconcile. -/
def inputIn (r : NodeReconciler) (policies : List MultiNetworkPolicy) (order : ReconcileOrder)
    (pod : Controllers.Pod) (podInfo : Controllers.PodInfo) : Input :=
  r.inputFor order.run (buildPolicyMap (order.policies.arrange policies)) pod podInfo

omit hpolicies hpods hnd in
variable (policies) in
/-- What reconciling a served pod alone does. -/
theorem alone_of_served (hserved : r.served? pod = some podInfo) (order : ReconcileOrder)
    (env : NodeHost) (netns : NetNamespaces) :
    (r.alone policies order env netns pod).1 =
        ((runAt env (r.inputIn policies order pod podInfo) (r.pathFor podInfo)
          (netns (r.pathFor podInfo))).1.map (reportOf pod)).toList ∧
      (r.alone policies order env netns pod).2 (r.pathFor podInfo) =
        (runAt env (r.inputIn policies order pod podInfo) (r.pathFor podInfo)
          (netns (r.pathFor podInfo))).2 := by
  rw [alone_fst, alone, reconcilePod_eq, podTask_of_served hserved, Task.run_work]
  exact ⟨rfl, rfl⟩

/-- The ruleset of a pod after a reconcile is that of its run, or the old one. -/
theorem reconcileNode_served (hserved : r.served? pod = some podInfo) (order : ReconcileOrder)
    (env : NodeHost) (netns : NetNamespaces) (hpod : pod ∈ r.localPods pods) :
    (r.reconcileNode order env netns).2 (r.pathFor podInfo) =
        (runAt env (r.inputIn policies order pod podInfo) (r.pathFor podInfo)
          (netns (r.pathFor podInfo))).2 ∨
      (r.reconcileNode order env netns).2 (r.pathFor podInfo) = netns (r.pathFor podInfo) := by
  by_cases hvisited : pod ∈ r.visited policies pods order env netns
  · refine .inl ?_
    rw [reconcileNode_of_visited hpolicies hpods hnd hvisited hserved,
      (alone_of_served policies hserved order env netns).2]
  · refine .inr (reconcileNode_of_not_visited hpolicies hpods hnd ?_)
    intro hpath
    obtain ⟨pod', hvisited', hserved'⟩ := List.mem_filterMap.1 hpath
    have hpod' := (r.localPods_perm order pods).mem_iff.1
      ((upTo_sublist _ _).subset hvisited')
    -- no other pod is served at this path
    have hpath : (r.served? pod).map r.pathFor = some (r.pathFor podInfo) := by rw [hserved]; rfl
    rw [eq_of_nodup_filterMap hnd hpod hpod' hpath hserved'] at hvisited
    exact hvisited hvisited'

/-- A reconcile that is quiet for a pod has run for it without an error. -/
theorem reconcileNode_quiet (hserved : r.served? pod = some podInfo) {order : ReconcileOrder}
    {env : NodeHost} {netns : NetNamespaces} (hpod : pod ∈ r.localPods pods)
    (hquiet : QuietFor pod (r.reconcileNode order env netns).1) :
    (runAt env (r.inputIn policies order pod podInfo) (r.pathFor podInfo)
        (netns (r.pathFor podInfo))).1 = none ∧
      (r.reconcileNode order env netns).2 (r.pathFor podInfo) =
        (runAt env (r.inputIn policies order pod podInfo) (r.pathFor podInfo)
          (netns (r.pathFor podInfo))).2 := by
  have herrors := reconcileNode_errors hpolicies hpods hnd order env netns
  -- no pod panics, or the only report would be the panic
  have hall : ∀ pod' ∈ r.localPods (order.pods.arrange pods),
      decide (.panicked ∈ (r.alone policies order env netns pod').1) = false := by
    intro pod' hpod'
    refine decide_eq_false fun hpanics => hquiet.1 ?_
    rw [herrors, if_pos ⟨pod', (r.localPods_perm order pods).mem_iff.1 hpod', hpanics⟩]
    exact List.mem_singleton_self _
  have hlisted := (r.localPods_perm order pods).mem_iff.2 hpod
  have hvisited : pod ∈ r.visited policies pods order env netns := by
    rw [visited, upTo_eq_self hall]
    exact hlisted
  obtain ⟨hreports, hruleset⟩ := alone_of_served policies hserved order env netns
  refine ⟨?_, (reconcileNode_of_visited hpolicies hpods hnd hvisited hserved).trans hruleset⟩
  rw [if_neg] at herrors
  · cases hrun : (runAt env (r.inputIn policies order pod podInfo) (r.pathFor podInfo)
      (netns (r.pathFor podInfo))).1 with
    | none => rfl
    | some e =>
      rw [hrun] at hreports
      refine absurd ?_ (hquiet.not_mem e)
      rw [herrors]
      refine List.mem_flatMap_of_mem hlisted ?_
      rw [hreports]
      exact List.mem_singleton_self _
  · rintro ⟨pod', hpod', hpanics⟩
    have hnot := hall pod' ((r.localPods_perm order pods).mem_iff.2 hpod')
    exact of_decide_eq_false hnot hpanics

end Node

/-! ### Reconciles of a quiet cluster -/

/-- With distinct names the map has the policies in the order of the listing. -/
theorem foldl_insertPolicy {m policies : List MultiNetworkPolicy}
    (hnd : ((m ++ policies).map fun p => (p.namespace, p.name)).Nodup) :
    policies.foldl insertPolicy m = m ++ policies := by
  induction policies generalizing m with
  | nil => exact (List.append_nil m).symm
  | cons p ps ih =>
    have hsplit : m ++ p :: ps = (m ++ [p]) ++ ps := by
      rw [List.append_assoc, List.singleton_append]
    rw [hsplit] at hnd ⊢
    have hnew : insertPolicy m p = m ++ [p] := by
      rw [List.map_append, List.map_append] at hnd
      have hdisj := (List.nodup_append.1 (List.nodup_append.1 hnd).1).2.2
      rw [insertPolicy, List.filter_eq_self.2]
      intro q hq
      rw [bne_iff_ne]
      exact hdisj _ (List.mem_map_of_mem hq) _ (List.mem_singleton_self _)
    rw [List.foldl_cons, hnew, ih hnd]

/-- The policy map of a listing holds its policies. -/
theorem buildPolicyMap_policies {policies : List MultiNetworkPolicy}
    (hnd : (policies.map fun p => (p.namespace, p.name)).Nodup) :
    (buildPolicyMap policies).policies = policies := foldl_insertPolicy hnd

/-- Permuted listings are listings of the same pods. -/
theorem samePods_map (pods : Except Error (List Pod)) (a b : Arrangement Pod) :
    SamePods (pods.map a.arrange) (pods.map b.arrange) := by
  cases pods with
  | error e => trivial
  | ok pods => exact (a.perm pods).trans (b.perm pods).symm

/-- The inputs for a pod in two reconciles differ in orders only. -/
theorem reordered_inputIn {r : NodeReconciler} {policies : List MultiNetworkPolicy}
    (hpolicies : r.client.listPolicies = .ok policies) (order order' : ReconcileOrder)
    (pod : Controllers.Pod) (podInfo : Controllers.PodInfo) :
    (r.inputIn policies order pod podInfo).Reordered (r.inputIn policies order' pod podInfo) := by
  have hmap : ∀ o : ReconcileOrder,
      ((o.run pod).policyMap (buildPolicyMap (o.policies.arrange policies))).policies.Perm
        policies := by
    intro o
    have hlist := o.policies.perm policies
    have hnd := ((hlist.map fun p => (p.namespace, p.name)).nodup_iff).2
      (r.client.policies_nodup policies hpolicies)
    refine ((o.run pod).policyRange.perm _).trans ?_
    rw [buildPolicyMap_policies hnd]
    exact hlist
  exact ⟨⟨fun _ => samePods_map _ _ _, rfl, rfl⟩, rfl, (hmap order).trans (hmap order').symm, rfl,
    rfl⟩

/-- A further reconcile of the node while the cluster stays as it is; in the namespace `path` the
machine is that of `h` and answers every request. -/
def Again (r : NodeReconciler) (h : Host) (path : Str) (netns netns' : NetNamespaces) : Prop :=
  ∃ order env, h.SameMachine (env.host path) ∧ (∀ n, (env.host path).fault n = false) ∧
    (r.reconcileNode order env netns).2 = netns'

/-- Two reconciles of a node that report nothing about one of its pods. -/
structure TwoReconciles (r : NodeReconciler) (policies : List MultiNetworkPolicy)
    (pods : List Controllers.Pod) (pod : Controllers.Pod) (podInfo : Controllers.PodInfo)
    (order₁ order₂ : ReconcileOrder) (env₁ env₂ : NodeHost) (netns : NetNamespaces) (k : Kernel) :
    Prop where
  listPolicies : r.client.listPolicies = .ok policies
  listPods : r.client.listPods = .ok pods
  /-- No two pods of the node share a network namespace. -/
  paths : (r.paths pods).Nodup
  mem : pod ∈ r.localPods pods
  served : r.served? pod = some podInfo
  /-- The daemon has not been in the namespace of the pod before. -/
  ruleset : netns (r.pathFor podInfo) = some k
  wf : k.WF
  empty : k.ManagedEmpty
  quiet₁ : QuietFor pod (r.reconcileNode order₁ env₁ netns).1
  quiet₂ : QuietFor pod (r.reconcileNode order₂ env₂ (r.reconcileNode order₁ env₁ netns).2).1
  byteOrder : (env₂.host (r.pathFor podInfo)).byteOrder = (env₁.host (r.pathFor podInfo)).byteOrder
  orderless : (env₂.host (r.pathFor podInfo)).Orderless
  /-- No two rules share a key. -/
  keys : ∀ s₁, applyPolicyRulesForPodAndFamily (env₁.host (r.pathFor podInfo))
      (r.inputIn policies order₁ pod podInfo) (.new k) = .ok () s₁ →
    KeysDistinct (env₁.host (r.pathFor podInfo)) k s₁ ∧
      ∀ s₂, applyPolicyRulesForPodAndFamily (env₂.host (r.pathFor podInfo))
          (r.inputIn policies order₂ pod podInfo) (.new s₁.kernel) = .ok () s₂ →
        KeysDistinct (env₂.host (r.pathFor podInfo)) s₁.kernel s₂

end NodeReconciler

/-- A run that reports no error has succeeded. -/
theorem runAt_of_none {env : NodeHost} {i : Input} {path : Str} {k : Kernel}
    (h : (runAt env i path (some k)).1 = none) :
    ∃ s, applyPolicyRulesForPodAndFamily (env.host path) i (.new k) = .ok () s ∧
      (runAt env i path (some k)).2 = some s.kernel := by
  cases hopen : env.openNftables path with
  | error e => simp [runAt, hopen] at h
  | ok u =>
    cases hrun : applyPolicyRulesForPodAndFamily (env.host path) i (.new k) with
    | ok u s => exact ⟨s, rfl, by simp [runAt, hopen, hrun]⟩
    | error e s => simp [runAt, hopen, hrun] at h

/-- A run leaves the ruleset as it was or is a run of the daemon. -/
theorem runAt_some (env : NodeHost) (i : Input) (path : Str) (k : Kernel) :
    (runAt env i path (some k)).2 = some k ∨
      ∃ s, (runAt env i path (some k)).2 = some s.kernel ∧
        (applyPolicyRulesForPodAndFamily (env.host path) i (.new k) = .ok () s ∨
          ∃ e, applyPolicyRulesForPodAndFamily (env.host path) i (.new k) = .error e s) := by
  cases hopen : env.openNftables path with
  | error e => exact .inl (by simp [runAt, hopen])
  | ok u =>
    cases hrun : applyPolicyRulesForPodAndFamily (env.host path) i (.new k) with
    | ok u s => exact .inr ⟨s, by simp [runAt, hopen, hrun], .inl rfl⟩
    | error e s => exact .inr ⟨s, by simp [runAt, hopen, hrun], .inr ⟨e, rfl⟩⟩

namespace NodeReconciler

variable {r : NodeReconciler} {policies : List MultiNetworkPolicy} {pods : List Controllers.Pod}
  {pod : Controllers.Pod} {podInfo : Controllers.PodInfo} {order₁ order₂ : ReconcileOrder}
  {env₁ env₂ : NodeHost} {netns netns' : NetNamespaces} {k : Kernel}

/-- The two reconciles are two runs for the pod. -/
theorem TwoReconciles.repeated
    (hr : TwoReconciles r policies pods pod podInfo order₁ order₂ env₁ env₂ netns k) :
    ∃ s₁ s₂, Repeated (env₁.host (r.pathFor podInfo)) (env₂.host (r.pathFor podInfo))
        (r.inputIn policies order₁ pod podInfo) (r.inputIn policies order₂ pod podInfo) k s₁ s₂ ∧
      (r.reconcileNode order₂ env₂ (r.reconcileNode order₁ env₁ netns).2).2 (r.pathFor podInfo) =
        some s₂.kernel := by
  obtain ⟨hnone₁, hafter₁⟩ := reconcileNode_quiet hr.listPolicies hr.listPods hr.paths hr.served
    hr.mem hr.quiet₁
  obtain ⟨hnone₂, hafter₂⟩ := reconcileNode_quiet hr.listPolicies hr.listPods hr.paths hr.served
    hr.mem hr.quiet₂
  rw [hr.ruleset] at hnone₁ hafter₁
  obtain ⟨s₁, hs₁, hk₁⟩ := runAt_of_none hnone₁
  rw [hafter₁, hk₁] at hnone₂ hafter₂
  obtain ⟨s₂, hs₂, hk₂⟩ := runAt_of_none hnone₂
  obtain ⟨hkeys₁, hkeys₂⟩ := hr.keys s₁ hs₁
  exact ⟨s₁, s₂, ⟨hr.wf, hr.empty, hs₁, hs₂, reordered_inputIn hr.listPolicies .., hr.orderless,
    hr.byteOrder, hkeys₁, hkeys₂ s₂ hs₂⟩, hafter₂.trans hk₂⟩

section Again

variable (hpolicies : r.client.listPolicies = .ok policies) (hpods : r.client.listPods = .ok pods)
  (hnd : (r.paths pods).Nodup) (hpod : pod ∈ r.localPods pods)
  (hserved : r.served? pod = some podInfo) (order : ReconcileOrder) {h : Host}
include hpolicies hpods hnd hpod hserved

/-- For a pod that is served, a further reconcile of the node is a further run or none. -/
theorem Again.rerun (hagain : r.Again h (r.pathFor podInfo) netns netns')
    (hk : netns (r.pathFor podInfo) = some k) :
    ∃ k', netns' (r.pathFor podInfo) = some k' ∧
      Relation.ReflTransGen (Rerun h (r.inputIn policies order pod podInfo)) k k' := by
  obtain ⟨order', env, hm, hf, rfl⟩ := hagain
  rcases reconcileNode_served hpolicies hpods hnd hserved order' env netns hpod with hafter | hafter
  · rw [hk] at hafter
    rcases runAt_some env (r.inputIn policies order' pod podInfo) (r.pathFor podInfo) k
      with hsame | ⟨s, hs, hrun⟩
    · exact ⟨k, hafter.trans hsame, .refl⟩
    · exact ⟨s.kernel, hafter.trans hs,
        .single ⟨_, _, s, hm, hf, reordered_inputIn hpolicies .., rfl, hrun⟩⟩
  · exact ⟨k, hafter.trans hk, .refl⟩

/-- Later reconciles are runs for the pod, or do nothing to it. -/
theorem Again.reruns
    (hagain : Relation.ReflTransGen (r.Again h (r.pathFor podInfo)) netns netns')
    (hk : netns (r.pathFor podInfo) = some k) :
    ∃ k', netns' (r.pathFor podInfo) = some k' ∧
      Relation.ReflTransGen (Rerun h (r.inputIn policies order pod podInfo)) k k' := by
  induction hagain with
  | refl => exact ⟨k, hk, .refl⟩
  | tail _ hstep ih =>
    obtain ⟨k₁, hk₁, hr₁⟩ := ih
    obtain ⟨k₂, hk₂, hr₂⟩ := Again.rerun hpolicies hpods hnd hpod hserved order hstep hk₁
    exact ⟨k₂, hk₂, hr₁.trans hr₂⟩

end Again

/-- **The policies of the cluster are in force for a pod of the node** after two reconciles that
report nothing about it and any number of further ones, whatever they do to the other pods and in
whatever orders they meet policies, pods and maps. -/
theorem node_verdict
    (hr : TwoReconciles r policies pods pod podInfo order₁ order₂ env₁ env₂ netns k)
    (hi : (r.inputIn policies order₁ pod podInfo).Plain)
    (hco : (r.inputIn policies order₁ pod podInfo).SetsCoincide
      (env₁.host (r.pathFor podInfo)).byteOrder)
    (hlater : Relation.ReflTransGen (r.Again (env₂.host (r.pathFor podInfo)) (r.pathFor podInfo))
      (r.reconcileNode order₂ env₂ (r.reconcileNode order₁ env₁ netns).2).2 netns')
    (d : Direction) (pkt : Packet) (hport : ∀ protocol, pkt.destination ≠ some (protocol, 0))
    (m : BitVec 32) :
    ∃ k', netns' (r.pathFor podInfo) = some k' ∧
      (evalChain (env₂.host (r.pathFor podInfo)).byteOrder k' pkt filterTableName d.hook.name m).2 =
        (r.inputIn policies order₁ pod podInfo).verdict pkt d m := by
  obtain ⟨s₁, s₂, hrep, hs₂⟩ := hr.repeated
  obtain ⟨k', hk', hlater'⟩ := Again.reruns hr.listPolicies hr.listPods hr.paths hr.mem hr.served
    order₁ hlater hs₂
  obtain ⟨es, hes⟩ := hrep.installed hi hco
  have hinst := hes.reruns hi hlater'
  exact ⟨k', hk', hinst.enforced.hook_verdict hinst.hooked hi hport m⟩

end NodeReconciler

/-- What is known of the pod `web`. -/
def webPodInfo : Controllers.PodInfo :=
  { webInfo with
    name := str "web"
    «namespace» := str "ns"
    netNSPath := str "/proc/1/ns/net"
    networkStatus := [⟨str "ns/net1", str "net1", [str "10.0.0.1"]⟩]
    nodeName := str "n1" }

/-- The input of the first run for `web`. -/
def webInput : Input :=
  twoPodNode.inputIn [dbPolicy, closingPolicy] storedOrder
    (pinnedPod (str "web") (str "10.0.0.1") (str "n1") [⟨str "c", str "cri://1", true⟩]) webPodInfo

set_option maxRecDepth 100000 in
/-- The input of the served pod is plain. -/
theorem plain_webInput : webInput.Plain where
  names := by decide +kernel
  indices := by decide +kernel
  ports := by decide +kernel
  except := by
    have hnone : ∀ d, ∀ p ∈ webInput.policiesIn d, ∀ rule ∈ p.policy.rulesIn d,
        ∀ peer ∈ rule.peers, peer.ipBlock = none := by
      decide +kernel
    intro d p hp rule hrule peer hpeer block hblock
    rw [hnone d p hp rule hrule peer hpeer] at hblock
    cases hblock
  prefixes := by decide +kernel
  deps := by
    have hplain : ∀ pod ∈ twoPodNode.pods, ∀ podInfo ∈ (twoPodNode.getPodInfo pod).toOption,
        ∀ intf ∈ podInfo.interfaces, ∀ ip ∈ intf.ips, isPlainAddress ip = true := by
      decide +kernel
    intro sPod info hinfo
    obtain ⟨pod, hfind, hinfo⟩ := Option.bind_eq_some_iff.1 hinfo
    obtain ⟨podInfo, hpodInfo, rfl⟩ := Option.map_eq_some_iff.1 hinfo
    exact hplain pod (List.mem_of_find?_eq_some hfind) podInfo hpodInfo
  podInfo := by
    show ∀ intf ∈ webInfo.interfaces, ∀ ip ∈ intf.ips, isPlainAddress ip = true
    decide +kernel

/-- The input of the second run for `web`. -/
def webInputReversed : Input :=
  twoPodNode.inputIn [dbPolicy, closingPolicy] reverseOrder
    (pinnedPod (str "web") (str "10.0.0.1") (str "n1") [⟨str "c", str "cri://1", true⟩]) webPodInfo

set_option maxRecDepth 100000 in
/-- Two reconciles of the node, the second with everything in another order. -/
theorem web_reconciles : NodeReconciler.TwoReconciles twoPodNode [dbPolicy, closingPolicy]
    twoPodNode.pods (pinnedPod (str "web") (str "10.0.0.1") (str "n1")
      [⟨str "c", str "cri://1", true⟩]) webPodInfo storedOrder reverseOrder halfHost halfHost
    twoNamespaces Kernel.empty := by
  have hrun : ((twoPodNode.reconcileNode storedOrder halfHost twoNamespaces).1 =
      [.wrap (str "apply rules for ns/db") (.wrap (str "failed to open nftables for pod (ns/db)")
        .library)] ∧
      (twoPodNode.reconcileNode reverseOrder halfHost
        (twoPodNode.reconcileNode storedOrder halfHost twoNamespaces).2).1 =
      [.wrap (str "apply rules for ns/db") (.wrap (str "failed to open nftables for pod (ns/db)")
        .library)]) ∧
      ∀ s₁ ∈ outcome Host.reliable webInput Kernel.empty,
        KeysDistinct Host.reliable Kernel.empty s₁ ∧
          ∀ s₂ ∈ outcome Host.reliable webInputReversed s₁.kernel,
            KeysDistinct Host.reliable s₁.kernel s₂ := by
    decide +kernel
  obtain ⟨⟨herr₁, herr₂⟩, hkeys⟩ := hrun
  -- what is reported is about the other pod
  have hother : ∀ e', NodeReconciler.QuietFor (pinnedPod (str "web") (str "10.0.0.1") (str "n1")
      [⟨str "c", str "cri://1", true⟩]) [Error.wrap (str "apply rules for ns/db") e'] := by
    intro e'
    refine ⟨fun hmem => Error.noConfusion (List.mem_singleton.1 hmem), fun e hmem => ?_⟩
    have hname := (Error.wrap.inj (List.mem_singleton.1 hmem)).1
    revert hname
    decide
  refine ⟨rfl, rfl, by decide +kernel, by decide +kernel, by decide +kernel, by decide +kernel,
    .empty, .empty, ?_, ?_, rfl, fun _ _ _ _ _ _ => rfl, ?_⟩
  · rw [herr₁]
    exact hother _
  · rw [herr₂]
    exact hother _
  · intro s₁ hs₁
    obtain ⟨hkeys₁, hkeys₂⟩ := hkeys s₁ (outcome_eq_some.2 hs₁)
    exact ⟨hkeys₁, fun s₂ hs₂ => hkeys₂ s₂ (outcome_eq_some.2 hs₂)⟩

/-- The rulesets of the node after two and after three reconciles. -/
def secondNamespaces : NetNamespaces :=
  (twoPodNode.reconcileNode reverseOrder halfHost
    (twoPodNode.reconcileNode storedOrder halfHost twoNamespaces).2).2

def thirdNamespaces : NetNamespaces :=
  (twoPodNode.reconcileNode storedOrder halfHost secondNamespaces).2

set_option maxRecDepth 100000 in
/-- Three reconciles fail for `db`; `web` lets in what comes from `db` and nothing else. -/
theorem web_verdict : ∃ k', thirdNamespaces (str "/proc/1/ns/net") = some k' ∧
    (evalChain .little k' (tcpPacket (str "net1") [10, 0, 0, 5]) filterTableName
      (str "input") 0).2 = .done ∧
    (evalChain .little k' (tcpPacket (str "net1") [10, 0, 0, 9]) filterTableName
      (str "input") 0).2 = .drop := by
  have hlater : Relation.ReflTransGen (twoPodNode.Again Host.reliable (str "/proc/1/ns/net"))
      secondNamespaces thirdNamespaces :=
    .single ⟨storedOrder, halfHost, ⟨rfl, rfl, rfl⟩, fun _ => rfl, rfl⟩
  have hverdict := fun source => NodeReconciler.node_verdict web_reconciles plain_webInput
    (by decide +kernel) hlater .ingress (tcpPacket (str "net1") source)
    (destination_tcpPacket _ _) 0
  obtain ⟨k', hk', hpass⟩ := hverdict [10, 0, 0, 5]
  obtain ⟨k'', hk'', hdrop⟩ := hverdict [10, 0, 0, 9]
  obtain rfl : k' = k'' := Option.some.inj (hk'.symm.trans hk'')
  refine ⟨k', hk', hpass.trans ?_, hdrop.trans ?_⟩
  · show webInput.verdict _ .ingress 0 = .done
    decide +kernel
  · show webInput.verdict _ .ingress 0 = .drop
    decide +kernel

end MultiNetPolicy.Controller
