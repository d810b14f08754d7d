import MultiNetPolicy.Equiv.Sound

/-!
# What an input asks for

The answers a rendering program gets from the kernel change the IDs of its sets and whether the
last rule of an entry chain is forced, and nothing else.  `plan` computes the requests of a program
without a kernel, and `Follows` says that every execution makes the requests of the plan.

`Input.requests` is the plan of a whole rendering; `requests_of_exec` reads it off any execution.
-/

namespace MultiNetPolicy

open ByteString

/-- A call without its answer: sets have no ID, rules are as they will be listed. -/
inductive Request where
  | chain (c : Chain)
  | set (s : NftSet) (els : List SetElement)
  | rule (r : Rule) (action : RuleAction)
  deriving DecidableEq

/-- What a call asks for. -/
def Event.request : Event → Request
  | chain c => .chain c
  | set s els _ => .set { s with id := 0 } els
  | rule r action _ _ => .rule r.listed action

namespace Render

variable {α β γ δ : Type}

/-- The requests of a program, and its result when no rule is new. -/
def plan : Render α → Option (List Request × α)
  | ret a => some ([], a)
  | fail _ => none
  | chain _ c k => (plan (k c.short)).map fun x => (.chain c.short :: x.1, x.2)
  | set _ s els k => (plan (k (s.short 0))).map fun x => (.set (s.short 0) els :: x.1, x.2)
  | rule _ r action _ k => (plan (k false)).map fun x => (.rule r.listed action :: x.1, x.2)

/-- The requests of a sequence. -/
theorem plan_bind {p : Render α} {f : α → Render β} {rs₁ rs₂ : List Request} {a : α} {b : β}
    (hp : plan p = some (rs₁, a)) (hf : plan (f a) = some (rs₂, b)) :
    plan (p >>= f) = some (rs₁ ++ rs₂, b) := by
  change plan (Render.bind p f) = _
  induction p generalizing rs₁ with
  | ret a' =>
    obtain ⟨rfl, rfl⟩ : [] = rs₁ ∧ a' = a := by simpa [plan] using hp
    exact hf
  | fail e => cases hp
  | chain w c k ih =>
    obtain ⟨⟨rs, _⟩, hk, heq⟩ := Option.map_eq_some_iff.1 hp
    cases heq
    rw [Render.bind, plan, ih _ hk]
    rfl
  | set w s els k ih =>
    obtain ⟨⟨rs, _⟩, hk, heq⟩ := Option.map_eq_some_iff.1 hp
    cases heq
    rw [Render.bind, plan, ih _ hk]
    rfl
  | rule w r action force k ih =>
    obtain ⟨⟨rs, _⟩, hk, heq⟩ := Option.map_eq_some_iff.1 hp
    cases heq
    rw [Render.bind, plan, ih _ hk]
    rfl

@[simp] theorem plan_wrapErr (context : Str) (p : Render α) :
    plan (wrapErr context p) = plan p := by
  induction p with
  | ret a => rfl
  | fail e => rfl
  | chain w c k ih => rw [wrapErr, plan, plan, ih]
  | set w s els k ih => rw [wrapErr, plan, plan, ih]
  | rule w r action force k ih => rw [wrapErr, plan, plan, ih]

/-- Every execution of `p` makes the requests of the plan of `q`, and the results are related. -/
def Follows (R : α → β → Prop) (p : Render α) (q : Render β) : Prop :=
  ∀ es a, Exec p es a → ∃ b, plan q = some (es.map Event.request, b) ∧ R a b

/-- A program that makes the same requests whatever it is answered. -/
def Steady (p : Render α) : Prop := Follows (fun _ _ => True) p p

/-- What the two programs return is related step by step. -/
theorem follows_bind {R : α → β → Prop} {S : γ → δ → Prop} {p : Render α} {q : Render β}
    {f : α → Render γ} {g : β → Render δ} (hp : Follows R p q)
    (hf : ∀ a b, R a b → Follows S (f a) (g b)) : Follows S (p >>= f) (q >>= g) := by
  intro es c hex
  obtain ⟨a, es₁, es₂, h₁, h₂, rfl⟩ := exec_bind.1 hex
  obtain ⟨b, hb, hab⟩ := hp es₁ a h₁
  obtain ⟨d, hd, hcd⟩ := hf a b hab es₂ c h₂
  exact ⟨d, by rw [List.map_append]; exact plan_bind hb hd, hcd⟩

theorem follows_pure {R : α → β → Prop} {a : α} {b : β} (h : R a b) :
    Follows R (pure a) (pure b) := by
  intro es c hex
  obtain ⟨rfl, rfl⟩ := exec_pure.1 hex
  exact ⟨b, rfl, h⟩

theorem follows_wrapErr {R : α → β → Prop} {p : Render α} {q : Render β} {context context' : Str}
    (h : Follows R p q) : Follows R (wrapErr context p) (wrapErr context' q) := by
  intro es a hex
  rw [plan_wrapErr]
  exact h es a (exec_wrapErr.1 hex)

theorem follows_ofExcept (e : Except Error α) : Follows Eq (ofExcept e) (ofExcept e) := by
  intro es a hex
  obtain ⟨rfl, rfl⟩ := exec_ofExcept.1 hex
  exact ⟨a, rfl, rfl⟩

theorem follows_addChain (c : Chain) : Follows Eq (addChain c) (addChain c) := by
  intro es x hex
  obtain ⟨rfl, rfl⟩ := exec_addChain.1 hex
  exact ⟨_, rfl, rfl⟩

/-- The answers to a set request differ in the ID only. -/
theorem follows_updateSet (s : NftSet) (els : List SetElement) :
    Follows (fun x y => ∃ id, x = s.short id ∧ y = s.short 0) (updateSet s els)
      (updateSet s els) := by
  intro es x hex
  obtain ⟨id, fresh, -, rfl, rfl⟩ := exec_updateSet.1 hex
  exact ⟨_, rfl, id, rfl, rfl⟩

/-- A rule is requested as it will be listed, forced or not. -/
theorem follows_updateRule {r r' : Rule} (hr : r.listed = r'.listed) (action : RuleAction)
    (force force' : Bool) :
    Follows (fun _ _ => True) (updateRule r action force) (updateRule r' action force') := by
  intro es x hex
  obtain rfl := exec_updateRule.1 hex
  refine ⟨false, ?_, trivial⟩
  change some ([Request.rule r'.listed action], false) =
    some ([Request.rule r.listed action], false)
  rw [hr]

theorem steady_when {c : Prop} [Decidable c] {p : Render Unit} (h : c → Steady p) :
    Steady (when c p) := by
  unfold when
  split
  · rename_i hc
    exact h hc
  · exact follows_pure trivial

theorem steady_forEach {f : Nat → α → Render Unit} : ∀ (l : List α) (i : Nat),
    (∀ j x, x ∈ l → Steady (f j x)) → Steady (forEach f i l)
  | [], _, _ => follows_pure trivial
  | x :: xs, i, h =>
    follows_bind (h i x (List.mem_cons_self ..)) fun _ _ _ =>
      steady_forEach xs (i + 1) fun j y hy => h j y (List.mem_cons_of_mem _ hy)

theorem steady_orLoop {f : α → Render Bool} : ∀ (l : List α), (∀ x ∈ l, Steady (f x)) →
    Steady (orLoop f l)
  | [], _ => follows_pure trivial
  | x :: xs, h =>
    follows_bind (h x (List.mem_cons_self ..)) fun _ _ _ =>
      follows_bind (steady_orLoop xs fun y hy => h y (List.mem_cons_of_mem _ hy)) fun _ _ _ =>
        follows_pure trivial

/-- A call whose result is thrown away. -/
theorem steady_updateRule (r : Rule) (action : RuleAction) (force : Bool) :
    Steady (do let _ ← updateRule r action force) :=
  follows_bind (follows_updateRule (by rfl) action force force) fun _ _ _ => follows_pure trivial

/-! ### The rendering functions -/

variable {bo : ByteOrder} {deps : PolicyDeps}

theorem steady_applyProtoPorts {chain portChain : Chain} {portsName policyName : Str}
    {protocol : Protocol} {els : List SetElement} :
    Steady (applyProtoPorts bo chain portsName portChain policyName protocol els) := by
  refine steady_when fun _ => follows_bind (follows_updateSet _ els) ?_
  rintro _ _ ⟨id, rfl, rfl⟩
  exact follows_wrapErr (follows_bind (follows_updateRule (by rfl) _ _ _) fun _ _ _ =>
    follows_pure trivial)

theorem steady_applyPolicyPortsRules {chain : Chain} {chainName policyName : Str}
    {ports : List MultiNetworkPolicyPort} {index : Nat} :
    Steady (applyPolicyPortsRules bo chainName chain policyName ports index) := by
  refine follows_bind (follows_wrapErr (follows_addChain _)) ?_
  rintro portChain _ rfl
  refine follows_bind (follows_updateRule (by rfl) _ _ _) fun _ _ _ =>
    follows_bind (follows_ofExcept _) ?_
  rintro els _ rfl
  exact follows_bind steady_applyProtoPorts fun _ _ _ => follows_bind steady_applyProtoPorts
    fun _ _ _ => follows_bind steady_applyProtoPorts fun _ _ _ =>
      steady_when fun _ => steady_updateRule _ _ _

theorem steady_applyPrefixes {chain : Chain} {chainName policyName cidr : Str} {index : Nat}
    {els except : List SetElement} {isV6 : Bool} :
    Steady (applyPrefixes bo chainName chain policyName cidr index els except isV6) := by
  refine steady_when fun _ => follows_bind (steady_when fun _ => ?_) fun _ _ _ => ?_
  · refine follows_bind (follows_wrapErr (follows_updateSet _ except)) ?_
    rintro _ _ ⟨id, rfl, rfl⟩
    exact follows_bind (follows_updateRule (by rfl) _ _ _) fun _ _ _ => follows_pure trivial
  · refine follows_bind (follows_wrapErr (follows_updateSet _ els)) ?_
    rintro _ _ ⟨id, rfl, rfl⟩
    exact follows_bind (follows_updateRule (by rfl) _ _ _) fun _ _ _ => follows_pure trivial

theorem steady_applyPolicyPeersRulesIPBlock {chain : Chain} {chainName policyName : Str}
    {block : IPBlock} {index : Nat} :
    Steady (applyPolicyPeersRulesIPBlock bo chainName chain policyName block index) := by
  refine follows_bind (follows_wrapErr (follows_ofExcept _)) ?_
  rintro except _ rfl
  refine follows_bind (follows_wrapErr (follows_ofExcept _)) ?_
  rintro els _ rfl
  exact follows_bind (follows_wrapErr steady_applyPrefixes) fun _ _ _ =>
    follows_wrapErr steady_applyPrefixes

theorem steady_addIPRule {chain : Chain} {chainName policyName : Str} {addrs : List Str}
    {peer : MultiNetworkPolicyPeer} {index : Nat} :
    Steady (addIPRule bo chainName addrs chain policyName peer index) := by
  cases addrs with
  | nil => exact follows_pure trivial
  | cons addr addrs =>
    refine follows_bind (follows_updateSet _ _) ?_
    rintro _ _ ⟨id, rfl, rfl⟩
    exact follows_bind (follows_updateRule (by rfl) _ _ _) fun _ _ _ => follows_pure trivial

theorem steady_applyPolicyPeer {chain : Chain} {chainName policyName : Str} {podInfo : PodInfo}
    {networks : List Str} {index : Nat} {peer : MultiNetworkPolicyPeer} :
    Steady (applyPolicyPeer bo deps chainName chain policyName podInfo networks index peer) := by
  unfold applyPolicyPeer
  split
  · exact follows_wrapErr steady_applyPolicyPeersRulesIPBlock
  · split
    · refine follows_wrapErr (follows_bind (follows_wrapErr (follows_ofExcept _)) ?_)
      rintro podSelector _ rfl
      refine follows_bind (follows_wrapErr (follows_ofExcept _)) ?_
      rintro pods _ rfl
      refine follows_bind (follows_wrapErr (follows_ofExcept _)) ?_
      rintro nsSelector _ rfl
      refine follows_wrapErr (follows_bind (follows_ofExcept _) ?_)
      rintro addrs _ rfl
      exact follows_bind (follows_wrapErr steady_addIPRule) fun _ _ _ =>
        follows_wrapErr steady_addIPRule
    · exact fun _ _ h => absurd h exec_fail

theorem steady_applyPolicyPeersRules {chain : Chain} {chainName policyName : Str}
    {peers : List MultiNetworkPolicyPeer} {podInfo : PodInfo} {networks : List Str} {index : Nat} :
    Steady (applyPolicyPeersRules bo deps chainName chain policyName peers podInfo networks
      index) := by
  refine follows_bind (follows_wrapErr (follows_addChain _)) ?_
  rintro peersChain _ rfl
  exact follows_bind (follows_updateRule (by rfl) _ _ _) fun _ _ _ =>
    follows_bind (steady_forEach _ _ fun _ _ _ => steady_applyPolicyPeer) fun _ _ _ =>
      steady_when fun _ => steady_updateRule _ _ _

/-- The calls for one rule. -/
theorem steady_applyPolicyRule {chain : Chain} {chainName policyName : Str} {podInfo : PodInfo}
    {networks : List Str} {resetName direction : Str} {index : Nat} {rule : PolicyRule} :
    Steady (applyPolicyRule bo deps chainName chain podInfo networks policyName resetName direction
      index rule) :=
  follows_bind (follows_wrapErr (steady_updateRule _ _ _)) fun _ _ _ =>
    follows_bind (follows_wrapErr steady_applyPolicyPortsRules) fun _ _ _ =>
      follows_bind (follows_wrapErr steady_applyPolicyPeersRules) fun _ _ _ =>
        follows_wrapErr (steady_updateRule _ _ _)

theorem steady_applyPolicyRules {chain : Chain} {chainName : Str} {podInfo : PodInfo}
    {networks : List Str} {policy : MultiNetworkPolicy} :
    Steady (applyPolicyRules bo deps chainName chain podInfo networks policy) := by
  unfold applyPolicyRules
  split
  · exact steady_forEach _ _ fun _ _ _ => steady_applyPolicyRule
  · exact steady_forEach _ _ fun _ _ _ => steady_applyPolicyRule

theorem steady_applyPodRules {chain : Chain} {podInfo : PodInfo} {policy : MultiNetworkPolicy}
    {networks : List Str} : Steady (applyPodRules bo deps chain podInfo policy networks) := by
  refine follows_bind (follows_wrapErr (follows_addChain _)) ?_
  rintro policyChain _ rfl
  exact follows_bind (follows_wrapErr (steady_orLoop _ fun _ _ =>
    follows_updateRule (by rfl) _ _ _)) fun _ _ _ =>
      follows_bind steady_applyPolicyRules fun _ _ _ => follows_pure trivial

/-- The calls for the policies of a direction. -/
theorem steady_applyPolicies {chain : Chain} {podInfo : PodInfo} {direction : Str}
    {policies : List InternalPolicy} :
    Steady (applyPolicies bo deps chain podInfo direction policies) := by
  refine steady_when fun _ => follows_bind (steady_orLoop _ fun p _ => ?_) fun _ _ _ => ?_
  · exact follows_bind (follows_wrapErr steady_applyPodRules) fun _ _ _ =>
      follows_bind (follows_wrapErr (steady_updateRule _ _ _)) fun _ _ _ => follows_pure trivial
  · exact follows_wrapErr (follows_bind (follows_updateRule (by rfl) _ _ _) fun _ _ _ =>
      follows_pure trivial)

theorem follows_bootstrapNetfilterChains :
    Follows Eq (bootstrapNetfilterChains bo) (bootstrapNetfilterChains bo) := by
  refine follows_bind (follows_wrapErr (follows_addChain _)) ?_
  rintro input _ rfl
  refine follows_bind (follows_wrapErr (follows_addChain _)) ?_
  rintro output _ rfl
  refine follows_bind (follows_wrapErr (follows_addChain _)) ?_
  rintro prerouting _ rfl
  refine follows_bind (follows_wrapErr (follows_addChain _)) ?_
  rintro ingress _ rfl
  refine follows_bind (follows_wrapErr (follows_addChain _)) ?_
  rintro egress _ rfl
  refine follows_bind (follows_wrapErr (follows_addChain _)) ?_
  rintro commonIngress _ rfl
  refine follows_bind (follows_wrapErr (follows_addChain _)) ?_
  rintro commonEgress _ rfl
  exact follows_pure rfl

/-- The calls for the base chains. -/
theorem follows_bootstrapNetfilterRules {interfaces : List InterfaceInfo} :
    Follows Eq (bootstrapNetfilterRules bo interfaces) (bootstrapNetfilterRules bo interfaces) := by
  refine follows_bind follows_bootstrapNetfilterChains ?_
  rintro n _ rfl
  refine follows_bind (follows_wrapErr (follows_updateSet _ _)) ?_
  rintro _ _ ⟨id₁, rfl, rfl⟩
  refine follows_bind (follows_wrapErr (follows_updateRule (by rfl) _ _ _)) fun _ _ _ =>
    follows_bind (follows_wrapErr (follows_updateRule (by rfl) _ _ _)) fun _ _ _ =>
      follows_bind (follows_wrapErr (follows_updateSet _ _)) ?_
  rintro _ _ ⟨id₂, rfl, rfl⟩
  exact follows_bind (follows_updateRule (by rfl) _ _ _) fun _ _ _ =>
    follows_bind (follows_updateRule (by rfl) _ _ _) fun _ _ _ =>
      follows_bind (follows_updateRule (by rfl) _ _ _) fun _ _ _ => follows_pure rfl

theorem steady_applyCommonICMPv6 {n : NftState} {acceptICMPv6 : Bool} :
    Steady (applyCommonICMPv6 n acceptICMPv6) := by
  have hndp : ∀ chain, Steady (allowNeighborDiscovery chain) := by
    intro chain
    refine follows_bind (follows_wrapErr (follows_updateSet _ _)) ?_
    rintro _ _ ⟨id, rfl, rfl⟩
    exact follows_bind (follows_wrapErr (follows_updateRule (by rfl) _ _ _)) fun _ _ _ =>
      follows_pure trivial
  unfold applyCommonICMPv6
  split
  · exact follows_bind (follows_wrapErr (steady_updateRule _ _ _)) fun _ _ _ =>
      follows_wrapErr (steady_updateRule _ _ _)
  · exact follows_bind (follows_wrapErr (hndp _)) fun _ _ _ => follows_wrapErr (hndp _)

theorem steady_applyCommonPrefixFamily {chain : Chain} {set : NftSet} {els : List SetElement}
    {proto : UInt8} {offset len : Nat} :
    Steady (applyCommonPrefixFamily chain set els proto offset len) := by
  refine steady_when fun _ => follows_bind (follows_wrapErr (follows_updateSet _ _)) ?_
  rintro _ _ ⟨id, rfl, rfl⟩
  exact follows_bind (follows_updateRule (by rfl) _ _ _) fun _ _ _ => follows_pure trivial

theorem steady_applyCommonPrefixRules {chain : Chain} {prefixes : List Str} {name : Str} :
    Steady (applyCommonPrefixRules chain prefixes name) := by
  refine follows_bind (follows_wrapErr (follows_ofExcept _)) ?_
  rintro els _ rfl
  exact follows_bind steady_applyCommonPrefixFamily fun _ _ _ => steady_applyCommonPrefixFamily

/-- The calls for the common chains. -/
theorem steady_applyCommonChainRules {n : NftState} {cfg : CommonRuleConfig} :
    Steady (applyCommonChainRules n cfg) :=
  follows_bind steady_applyCommonICMPv6 fun _ _ _ =>
    follows_bind (steady_when fun _ => follows_bind (follows_wrapErr (steady_updateRule _ _ _))
      fun _ _ _ => follows_wrapErr (steady_updateRule _ _ _)) fun _ _ _ =>
    follows_bind (steady_when fun _ => follows_wrapErr steady_applyCommonPrefixRules) fun _ _ _ =>
    follows_bind (steady_when fun _ => follows_wrapErr steady_applyCommonPrefixRules) fun _ _ _ =>
    follows_bind (follows_wrapErr (steady_updateRule _ _ _)) fun _ _ _ =>
      follows_wrapErr (steady_updateRule _ _ _)

/-- **The requests of a rendering do not depend on the kernel.** -/
theorem steady_renderInput (i : Input) : Steady (renderInput bo i) := by
  refine follows_bind (follows_wrapErr follows_bootstrapNetfilterRules) ?_
  rintro n _ rfl
  exact follows_bind (follows_wrapErr steady_applyCommonChainRules) fun _ _ _ =>
    follows_bind steady_applyPolicies fun _ _ _ => steady_applyPolicies

end Render

/-! ### The requests of an input -/

/-- What an input asks for; nothing when its rendering fails. -/
def Input.requests (bo : ByteOrder) (i : Input) : List Request :=
  ((Render.renderInput bo i).plan.map Prod.fst).getD []

/-- The sets an input asks for, with their elements. -/
def Input.requestedSets (bo : ByteOrder) (i : Input) : List (NftSet × List SetElement) :=
  (i.requests bo).filterMap fun
    | .set s els => some (s, els)
    | _ => none

/-- **What is asked for does not depend on the answers.** -/
theorem requests_of_exec {bo : ByteOrder} {i : Input} {es : List Event} {u : Unit}
    (h : Render.Exec (Render.renderInput bo i) es u) : i.requests bo = es.map Event.request := by
  have hsteady := @Render.steady_renderInput bo i
  unfold Render.Steady Render.Follows at hsteady
  obtain ⟨_, hplan, -⟩ := hsteady es u h
  simp only [Input.requests, hplan, Option.map_some, Option.getD_some]

/-- A set is requested exactly when an execution asks for it. -/
theorem mem_requestedSets {bo : ByteOrder} {i : Input} {es : List Event} {u : Unit}
    (h : Render.Exec (Render.renderInput bo i) es u) {s : NftSet} {els : List SetElement} :
    (s, els) ∈ i.requestedSets bo ↔ ∃ x fresh, .set x els fresh ∈ es ∧ s = { x with id := 0 } := by
  have hreq := requests_of_exec h
  unfold Input.requestedSets
  rw [hreq]
  simp only [List.mem_filterMap, List.mem_map]
  constructor
  · rintro ⟨_, ⟨e, he, rfl⟩, heq⟩
    cases e with
    | chain c => simp [Event.request] at heq
    | rule r action force isNew => simp [Event.request] at heq
    | set x els' fresh =>
      simp only [Event.request, Option.some.injEq, Prod.mk.injEq] at heq
      obtain ⟨rfl, rfl⟩ := heq
      exact ⟨x, fresh, he, rfl⟩
  · rintro ⟨x, fresh, he, rfl⟩
    exact ⟨_, ⟨_, he, rfl⟩, rfl⟩

end MultiNetPolicy
