import MultiNetPolicy.Equiv.Shape

/-!
# The calls of a direction, chain by chain

The rules of an entry chain (`commonRule`, `midRules`, `dropRule`) and of a policy chain
(`policyRules`) as lists, and the calls that ask for them.

* `callsIn_applyPolicyRules`: the calls of a policy for its chain: one block for each rule.
* `callsIn_applyPolicies`: the calls of a direction for its entry chain: the interface rules and the
  check of each policy, then the drop.
* `exists_callsIn_applyPolicies`: the calls for a chain of one policy are calls of that policy.
-/

namespace MultiNetPolicy

open ByteString

/-! ### The rules of a direction -/

/-- The rules of a policy in a direction. -/
def MultiNetworkPolicy.rulesIn (p : MultiNetworkPolicy) : Direction → List PolicyRule
  | .ingress => p.ingress.getD []
  | .egress => p.egress.getD []

/-- The policies that a run applies in a direction. -/
def Input.policiesIn (i : Input) : Direction → List InternalPolicy
  | .ingress => i.ingressPolicies
  | .egress => i.egressPolicies

/-- A policy is enabled for a direction. -/
def MultiNetworkPolicy.isFor (p : MultiNetworkPolicy) : Direction → Bool
  | .ingress => (getEnabledPolicyTypes p).1
  | .egress => (getEnabledPolicyTypes p).2

/-- The policies of a direction are enabled for it. -/
theorem Input.isFor_of_mem_policiesIn {i : Input} {d : Direction} {p : InternalPolicy}
    (hp : p ∈ i.policiesIn d) : p.policy.isFor d = true := by
  cases d with
  | ingress => exact (List.mem_filter.1 ((List.mem_insertionSort _).1 hp)).2
  | egress => exact (List.mem_filter.1 ((List.mem_insertionSort _).1 hp)).2

/-- The name that the mark resets of a direction carry. -/
def Direction.resetName (d : Direction) (p : MultiNetworkPolicy) : Str :=
  match d with
  | .ingress => policyNamespacedName p
  | .egress => p.name

def Direction.entryChain (d : Direction) : Chain := ⟨filterTableName, d.entry, none⟩

def Direction.commonChain (d : Direction) : Chain :=
  ⟨filterTableName, commonChainName d.entry, none⟩

/-- The first rule of an entry chain. -/
def commonRule : Direction → Rule
  | .ingress => Render.commonJumpRule Direction.ingress.entryChain Direction.ingress.commonChain
      (str "common-ingress-chain")
  | .egress => Render.commonJumpRule Direction.egress.entryChain Direction.egress.commonChain
      (str "common-egress-chain")

/-- The interfaces of a pod that a policy is for. -/
def InternalPolicy.interfaces (p : InternalPolicy) (podInfo : PodInfo) : List InterfaceInfo :=
  podInfo.interfaces.filter fun i => i.checkPolicyNetwork p.policyNetworks

/-- The interface rules of a policy. -/
def jumpRules (d : Direction) (podInfo : PodInfo) (p : InternalPolicy) : List Rule :=
  (p.interfaces podInfo).map
    (Render.podInterfaceRule d.entryChain (policyChainOf d.entry p.policy) p.policy)

/-- The rule behind the interface rules of a policy. -/
def checkRule (bo : ByteOrder) (d : Direction) (p : InternalPolicy) : Rule :=
  Render.generalMarkCheckRule bo d.entryChain p.policy

/-- The rules of an entry chain between the common jump and the drop. -/
def midRules (bo : ByteOrder) (d : Direction) (podInfo : PodInfo)
    (policies : List InternalPolicy) : List Rule :=
  policies.flatMap fun p => jumpRules d podInfo p ++ [checkRule bo d p]

def dropRule (d : Direction) : Rule := Render.dropRemainingRule d.entryChain

/-- The call for the drop of a direction: forced when an interface rule is new. -/
def dropCalls (ans : Rule → Bool) (d : Direction) (podInfo : PodInfo)
    (policies : List InternalPolicy) : List Event :=
  if policies.isEmpty then []
  else [.rule (dropRule d) .addRule (policies.any fun p => (jumpRules d podInfo p).any ans)
    (ans (dropRule d))]

/-- The block of a policy's rule in its chain. -/
def policyBlock (bo : ByteOrder) (d : Direction) (p : MultiNetworkPolicy) (index : Nat) :
    List Rule :=
  Render.blockRules bo (policyChainFullName d.entry p) (policyChainOf d.entry p)
    (policyNamespacedName p) (d.resetName p) index

/-- The rules of a policy chain. -/
def policyRules (bo : ByteOrder) (d : Direction) (p : MultiNetworkPolicy) : List Rule :=
  (p.rulesIn d).zipIdx.flatMap fun x => policyBlock bo d p x.2

/-- A policy chain is a list of blocks. -/
theorem policyRules_eq (bo : ByteOrder) (d : Direction) (p : MultiNetworkPolicy) :
    policyRules bo d p = (List.range (p.rulesIn d).length).flatMap (policyBlock bo d p) := by
  unfold policyRules
  rw [List.range_eq_range', ← List.zipIdx_map_snd, List.flatMap_map]

/-- Some peer of the policy's rules has an `except`. -/
def MultiNetworkPolicy.hasExcept (p : MultiNetworkPolicy) (d : Direction) : Prop :=
  ∃ rule ∈ p.rulesIn d, MultiNetPolicy.hasExcept rule.peers

/-- A rule of one of a policy's chains. -/
inductive PolicyCall (bo : ByteOrder) (d : Direction) (p : MultiNetworkPolicy)
    (r : Rule) : Prop where
  | policy (hr : r.InFilter (chainNameOf d p .policy)) (hshape : FlowRule bo r)
      (hrules : p.rulesIn d ≠ [])
  | ports (i : Nat) (hi : i < (p.rulesIn d).length) (hr : r.InFilter (chainNameOf d p (.ports i)))
      (hshape : PortsRule bo r)
  | peers (i : Nat) (hi : i < (p.rulesIn d).length) (hr : r.InFilter (chainNameOf d p (.peers i)))
      (hshape : PeersRule bo (p.rulesIn d)[i].peers r)

theorem portsChainOf_name (d : Direction) (p : MultiNetworkPolicy) (index : Nat) :
    (Render.portsChainOf (policyChainFullName d.entry p) index).name =
      chainNameOf d p (.ports index) := by
  simp only [chainNameOf, chainFullName, Render.portsChainOf]

theorem peersChainOf_name (d : Direction) (p : MultiNetworkPolicy) (index : Nat) :
    (Render.peersChainOf (policyChainFullName d.entry p) index).name =
      chainNameOf d p (.peers index) := by
  simp only [chainNameOf, chainFullName, Render.peersChainOf]

/-- The names of the chains of a policy in a direction. -/
def policyChainNames (d : Direction) (p : MultiNetworkPolicy) : List Str :=
  (rolesBelow (p.rulesIn d).length).map (chainNameOf d p)

/-- A rule of a policy is in one of the policy's chains. -/
theorem PolicyCall.mem_names {bo : ByteOrder} {d : Direction} {p : MultiNetworkPolicy} {r : Rule}
    (h : PolicyCall bo d p r) : ∃ c ∈ policyChainNames d p, r.InFilter c := by
  unfold policyChainNames
  simp only [List.mem_map, exists_exists_and_eq_and]
  cases h with
  | policy hr _ => exact ⟨.policy, mem_rolesBelow.2 trivial, hr⟩
  | ports i hi hr _ => exact ⟨.ports i, mem_rolesBelow.2 hi, hr⟩
  | peers i hi hr _ => exact ⟨.peers i, mem_rolesBelow.2 hi, hr⟩

/-- A policy without rules asks for none. -/
theorem PolicyCall.rules_ne_nil {bo : ByteOrder} {d : Direction} {p : MultiNetworkPolicy} {r : Rule}
    (h : PolicyCall bo d p r) : p.rulesIn d ≠ [] := by
  cases h with
  | policy _ _ hrules => exact hrules
  | ports i hi _ _ => exact List.ne_nil_of_length_pos (by omega)
  | peers i hi _ _ => exact List.ne_nil_of_length_pos (by omega)

/-- Chains of policies are not base chains. -/
theorem ne_base_of_mem {d : Direction} {p : MultiNetworkPolicy} {c c' : Str}
    (hc : c ∈ policyChainNames d p) (hc' : c' ∈ baseChainNames) : c ≠ c' := by
  obtain ⟨role, -, rfl⟩ := List.mem_map.1 hc
  rintro rfl
  exact chainNameOf_not_base d p role hc'

theorem Direction.entry_mem_base (d : Direction) : d.entry ∈ baseChainNames := by
  cases d <;> decide

/-- The name of a policy chain tells its direction. -/
theorem isIngressChain_policyChainFullName (d : Direction) (p : MultiNetworkPolicy) :
    isIngressChain (policyChainFullName d.entry p) = decide (d = .ingress) := by
  unfold policyChainFullName
  cases d with
  | ingress => rfl
  | egress => rfl

/-! ### The calls of a policy -/

theorem flatten_of_forall₂ {α β γ : Type} {F : α → List γ} {G : β → List γ} {l : List α}
    {ess : List β} (h : List.Forall₂ (fun a e => G e = F a) l ess) :
    (ess.map G).flatten = l.flatMap F := by
  induction h with
  | nil => rfl
  | cons hab _ ih => rw [List.map_cons, List.flatten_cons, List.flatMap_cons, hab, ih]

theorem forall₂_imp_mem {α β : Type} {R S : α → β → Prop} {l : List α} {ess : List β}
    (h : List.Forall₂ R l ess) (hRS : ∀ a ∈ l, ∀ e ∈ ess, R a e → S a e) :
    List.Forall₂ S l ess := by
  induction h with
  | nil => exact .nil
  | cons hab _ ih =>
    refine .cons (hRS _ (List.mem_cons_self ..) _ (List.mem_cons_self ..) hab) (ih ?_)
    exact fun a ha e he => hRS a (List.mem_cons_of_mem _ ha) e (List.mem_cons_of_mem _ he)

/-- What an element in the middle is paired with. -/
theorem forall₂_middle {α β : Type} {R : α → β → Prop} {a : α} {l₂ : List α} :
    ∀ {l₁ : List α} {es : List β}, List.Forall₂ R (l₁ ++ a :: l₂) es →
      ∃ es₁ e es₂, es = es₁ ++ e :: es₂ ∧ List.Forall₂ R l₁ es₁ ∧ R a e ∧ List.Forall₂ R l₂ es₂
  | [], _, .cons ha h => ⟨[], _, _, rfl, .nil, ha, h⟩
  | _ :: _, _, .cons hb h => by
    obtain ⟨es₁, e, es₂, rfl, h₁, ha, h₂⟩ := forall₂_middle h
    exact ⟨_ :: es₁, e, es₂, rfl, .cons hb h₁, ha, h₂⟩

/-- Calls for rules of other chains. -/
theorem callsIn_eq_nil_of_calls {P : Rule → Prop} {c : Str} {es : List Event}
    (h : ∀ e ∈ es, e.Calls P) (hP : ∀ r, P r → ∃ c', r.InFilter c' ∧ c' ≠ c) :
    callsIn filterTableName c es = [] :=
  callsIn_eq_nil fun e he => (h e he).inChain_eq_false fun r hr => by
    obtain ⟨c', hc', hne⟩ := hP r hr
    exact hc'.inChain_eq_false hne

namespace Render

variable {bo : ByteOrder} {deps : PolicyDeps} {d : Direction} {podInfo : PodInfo}
  {es : List Event}

/-- The rounds of `applyPolicyRules`. -/
theorem exec_applyPolicyRules {networks : List Str} {p : MultiNetworkPolicy} {u : Unit}
    (h : Exec (applyPolicyRules bo deps (policyChainFullName d.entry p) (policyChainOf d.entry p)
      podInfo networks p) es u) :
    ∃ ess, es = ess.flatten ∧ List.Forall₂ (fun x e => ∃ direction,
      Exec (applyPolicyRule bo deps (policyChainFullName d.entry p) (policyChainOf d.entry p)
        podInfo networks (policyNamespacedName p) (d.resetName p) direction x.2 x.1) e ())
      (p.rulesIn d).zipIdx ess := by
  unfold applyPolicyRules at h
  rw [isIngressChain_policyChainFullName] at h
  cases d with
  | ingress =>
    obtain ⟨ess, hess, rfl⟩ := exec_forEach.1 h
    exact ⟨ess, rfl, hess.imp fun _ _ hx => ⟨_, hx⟩⟩
  | egress =>
    obtain ⟨ess, hess, rfl⟩ := exec_forEach.1 h
    exact ⟨ess, rfl, hess.imp fun _ _ hx => ⟨_, hx⟩⟩

/-- The rules of a policy all go into its chains. -/
theorem calls_applyPolicyRules {networks : List Str} {p : MultiNetworkPolicy} {u : Unit}
    (h : Exec (applyPolicyRules bo deps (policyChainFullName d.entry p) (policyChainOf d.entry p)
      podInfo networks p) es u) : ∀ e ∈ es, e.Calls (PolicyCall bo d p) := by
  obtain ⟨ess, rfl, hess⟩ := exec_applyPolicyRules h
  intro e he
  obtain ⟨es', hes', he⟩ := List.mem_flatten.1 he
  obtain ⟨⟨rule, i⟩, hx, _, hround⟩ := exists_mem_of_forall₂ hess hes'
  have hi : i < (p.rulesIn d).length := by
    have := List.snd_lt_of_mem_zipIdx hx
    omega
  obtain ⟨b₀, b₁, b₂, b₃, rest₁, rest₂, rfl, hrest₁, hrest₂⟩ :=
    exec_applyPolicyRule rfl hround
  have hrule : rule = (p.rulesIn d)[i] := List.fst_eq_of_mem_zipIdx hx
  rw [hrule] at hrest₂
  simp only [List.mem_cons, List.mem_append, List.not_mem_nil, or_false] at he
  have hjump : ∀ target, FlowRule bo (policyJumpRule (policyChainFullName d.entry p)
      (policyChainOf d.entry p) (policyNamespacedName p) target) :=
    fun target => .verdict ⟨[.counter], .jump, target.name, rfl, rfl⟩
  have hrules : p.rulesIn d ≠ [] := List.ne_nil_of_length_pos (by omega)
  -- reset, ports chain with its jump and calls, peers chain likewise, check
  rcases he with rfl | rfl | rfl | he | rfl | rfl | he | rfl
  · exact .policy ⟨rfl, rfl⟩ (.reset _ _ _ _ rfl) hrules
  · trivial
  · exact .policy ⟨rfl, rfl⟩ (hjump _) hrules
  · exact (hrest₁ e he).calls.mono fun r hr => .ports i hi hr.1 hr.2
  · trivial
  · exact .policy ⟨rfl, rfl⟩ (hjump _) hrules
  · exact (hrest₂ e he).calls.mono fun r hr => .peers i hi hr.1 hr.2
  · exact .policy ⟨rfl, rfl⟩ (.check rfl) hrules

/-- The calls of one round for the policy chain. -/
theorem callsIn_applyPolicyRule {chainName policyName resetName direction : Str} {chain : Chain}
    {networks : List Str} {index : Nat} {rule : PolicyRule} {u : Unit}
    (ht : chain.table = filterTableName)
    (h : Exec (applyPolicyRule bo deps chainName chain podInfo networks policyName resetName
      direction index rule) es u) {ans : Rule → Bool} (hans : Answers ans es)
    (hports : (portsChainOf chainName index).name ≠ chain.name)
    (hpeers : (peersChainOf chainName index).name ≠ chain.name) :
    callsIn filterTableName chain.name es =
      appendCalls ans (blockRules bo chainName chain policyName resetName index) := by
  obtain ⟨b₀, b₁, b₂, b₃, rest₁, rest₂, rfl, hrest₁, hrest₂⟩ :=
    exec_applyPolicyRule ht h
  -- the calls for ports and peers are in chains of their own
  have hnil₁ : callsIn filterTableName chain.name rest₁ = [] := callsIn_eq_nil fun e he =>
    (hrest₁ e he).calls.inChain_eq_false fun r hr => hr.1.inChain_eq_false hports
  have hnil₂ : callsIn filterTableName chain.name rest₂ = [] := callsIn_eq_nil fun e he =>
    (hrest₂ e he).calls.inChain_eq_false fun r hr => hr.1.inChain_eq_false hpeers
  have hreset : (markResetRule bo chainName chain resetName index).InFilter chain.name := ⟨ht, rfl⟩
  have hjump : ∀ target, (policyJumpRule chainName chain policyName target).InFilter chain.name :=
    fun _ => ⟨ht, rfl⟩
  have hcheck : (markCheckRule bo chainName chain policyName index).InFilter chain.name := ⟨ht, rfl⟩
  rw [callsIn_cons_rule hreset, callsIn_cons_chain, callsIn_cons_rule (hjump _), callsIn_append,
    hnil₁, List.nil_append, callsIn_cons_chain, callsIn_cons_rule (hjump _), callsIn_append, hnil₂,
    List.nil_append, callsIn_cons_rule hcheck]
  have h₀ := hans _ _ _ b₀ (List.mem_cons_self ..)
  have h₁ := hans (policyJumpRule chainName chain policyName
      (portsChainOf chainName index)) .addRule
    false b₁ (by simp)
  have h₂ := hans (policyJumpRule chainName chain policyName
      (peersChainOf chainName index)) .addRule
    false b₂ (by simp)
  have h₃ := hans (markCheckRule bo chainName chain policyName index) .addRule false b₃ (by simp)
  rw [h₀, h₁, h₂, h₃]
  rfl

/-- The calls for the policy chain itself. -/
theorem callsIn_applyPolicyRules {networks : List Str} {p : MultiNetworkPolicy} {u : Unit}
    (h : Exec (applyPolicyRules bo deps (policyChainFullName d.entry p) (policyChainOf d.entry p)
      podInfo networks p) es u) {ans : Rule → Bool} (hans : Answers ans es)
    (hports : ∀ i < (p.rulesIn d).length, chainNameOf d p (.ports i) ≠ chainNameOf d p .policy)
    (hpeers : ∀ i < (p.rulesIn d).length, chainNameOf d p (.peers i) ≠ chainNameOf d p .policy) :
    callsIn filterTableName (chainNameOf d p .policy) es =
      appendCalls ans (policyRules bo d p) := by
  obtain ⟨ess, rfl, hess⟩ := exec_applyPolicyRules h
  have hrounds : List.Forall₂ (fun x e => callsIn filterTableName (chainNameOf d p .policy) e =
      appendCalls ans (policyBlock bo d p x.2)) (p.rulesIn d).zipIdx ess := by
    refine forall₂_imp_mem hess fun x hx e he ⟨_, hround⟩ => ?_
    have hi : x.2 < (p.rulesIn d).length := by
      have := List.snd_lt_of_mem_zipIdx hx
      omega
    exact callsIn_applyPolicyRule rfl hround
      (fun r a f b hm => hans r a f b (List.mem_flatten.2 ⟨e, he, hm⟩)) (hports _ hi) (hpeers _ hi)
  rw [callsIn_flatten, flatten_of_forall₂ hrounds]
  unfold policyRules appendCalls
  rw [List.map_flatMap]

/-! ### The calls of a direction -/

/-- The interface rules of a policy are asked for one by one. -/
theorem exec_jumps {f : InterfaceInfo → Rule} {ans : Rule → Bool} :
    ∀ {l : List InterfaceInfo} {es : List Event} {b : Bool},
      Exec (orLoop (fun x => updateRule (f x) .addRule false) l) es b → Answers ans es →
      es = appendCalls ans (l.map f) ∧ b = (l.map f).any ans
  | [], es, b, h, _ => by
    obtain ⟨rfl, rfl⟩ := exec_pure.1 h
    exact ⟨rfl, rfl⟩
  | x :: xs, es, b, h, hans => by
    change Exec (updateRule (f x) .addRule false >>= fun b => orLoop _ xs >>= fun bs =>
      pure (b || bs)) es b at h
    simp only [exec_bind, exec_updateRule, exec_pure] at h
    obtain ⟨b₁, _, _, rfl, ⟨b₂, es₂, _, h₂, ⟨rfl, rfl⟩, rfl⟩, rfl⟩ := h
    rw [Answers.append_iff, List.append_nil] at hans
    obtain ⟨rfl, rfl⟩ := exec_jumps h₂ hans.2
    rw [hans.1 _ _ _ b₁ (List.mem_singleton_self _)]
    exact ⟨by rw [List.append_nil]; rfl, rfl⟩

/-- The calls of one policy: its chain, the interface rules, the rules of its chains, the check. -/
structure PolicyCalls (bo : ByteOrder) (deps : PolicyDeps) (d : Direction) (podInfo : PodInfo)
    (ans : Rule → Bool) (p : InternalPolicy) (es esR : List Event) : Prop where
  calls : es = .chain (policyChainOf d.entry p.policy) ::
    (appendCalls ans (jumpRules d podInfo p) ++
    (esR ++ appendCalls ans [checkRule bo d p]))
  exec : Exec (applyPolicyRules bo deps (policyChainFullName d.entry p.policy)
    (policyChainOf d.entry p.policy) podInfo p.policyNetworks p.policy) esR ()
  answers : Answers ans esR

/-- The calls for one policy, and whether an interface rule is new. -/
theorem exec_applyPolicy {ans : Rule → Bool} {p : InternalPolicy} {direction : Str} {b : Bool}
    (h : Exec (applyPolicy bo deps d.entryChain podInfo direction p) es b) (hans : Answers ans es) :
    b = (jumpRules d podInfo p).any ans ∧ ∃ esR, PolicyCalls bo deps d podInfo ans p es esR := by
  simp only [applyPolicy, applyPodRules, applyGeneralMarkCheck, exec_bind, exec_wrapErr,
    exec_addChain, exec_updateRule, exec_pure] at h
  obtain ⟨_, _, _, ⟨_, _, _, ⟨rfl, rfl⟩, ⟨_, es₁, _, h₁, ⟨_, es₂, _, h₂, ⟨rfl, rfl⟩, rfl⟩, rfl⟩,
    rfl⟩, ⟨_, _, _, ⟨b', _, _, rfl, ⟨-, rfl⟩, rfl⟩, ⟨rfl, rfl⟩, rfl⟩, rfl⟩ := h
  simp only [List.append_nil, Answers.append_iff] at hans
  obtain ⟨⟨-, hans₁, hans₂⟩, hans₃⟩ := hans
  obtain ⟨rfl, rfl⟩ := exec_jumps h₁ hans₁
  have hcheck := hans₃ _ _ _ b' (List.mem_singleton_self _)
  refine ⟨rfl, es₂, ⟨?_, h₂, hans₂⟩⟩
  rw [hcheck, List.append_nil, List.append_nil, List.append_assoc, List.append_assoc]
  rfl

/-- The calls of a direction: those of its policies, then the drop, forced when an interface rule
is new. -/
theorem exec_applyPolicies {ans : Rule → Bool} {direction : Str} {policies : List InternalPolicy}
    {u : Unit} (h : Exec (applyPolicies bo deps d.entryChain podInfo direction policies) es u)
    (hans : Answers ans es) :
    (policies = [] ∧ es = []) ∨ (policies ≠ [] ∧ ∃ ess : List (List Event),
      es = ess.flatten ++ [.rule (dropRule d) .addRule
        (policies.any fun p => (jumpRules d podInfo p).any ans) (ans (dropRule d))] ∧
      List.Forall₂ (fun p e => ∃ esR, PolicyCalls bo deps d podInfo ans p e esR) policies ess) := by
  rcases exec_when.1 h with ⟨hlen, h⟩ | ⟨hlen, rfl⟩
  · simp only [applyDropRemaining, exec_bind, exec_wrapErr, exec_updateRule, exec_pure] at h
    obtain ⟨force, es₁, _, h₁, ⟨b, _, _, rfl, ⟨-, rfl⟩, rfl⟩, rfl⟩ := h
    obtain ⟨rs, hrs, rfl, rfl⟩ := exec_orLoop.1 h₁
    rw [List.append_nil, Answers.append_iff] at hans
    have hpolicy : List.Forall₂ (fun p (r : List Event × Bool) =>
        r.2 = (jumpRules d podInfo p).any ans ∧ ∃ esR, PolicyCalls bo deps d podInfo ans p r.1 esR)
        policies rs :=
      forall₂_imp_mem hrs fun p _ r hr hexec => exec_applyPolicy hexec fun x a f y hm =>
        hans.1 x a f y (List.mem_flatten.2 ⟨r.1, List.mem_map_of_mem hr, hm⟩)
    -- the drop is forced when one of the policies has a new interface rule
    have hforce : rs.any Prod.snd = policies.any fun p => (jumpRules d podInfo p).any ans := by
      clear hrs hans h₁ hlen h
      induction hpolicy with
      | nil => rfl
      | cons hab _ ih => rw [List.any_cons, List.any_cons, ih, hab.1]
    refine .inr ⟨List.ne_nil_of_length_pos hlen, rs.map Prod.fst, ?_, ?_⟩
    · rw [hforce, hans.2 _ _ _ b (List.mem_singleton_self _), List.append_nil]
      rfl
    · rw [List.forall₂_map_right_iff]
      exact hpolicy.imp fun _ _ hx => hx.2
  · refine .inl ⟨?_, rfl⟩
    cases policies with
    | nil => rfl
    | cons p ps => exact absurd (Nat.succ_pos _) hlen

/-- The policies of a direction put rules into its entry chain and into their own chains. -/
theorem calls_applyPolicies {ans : Rule → Bool} {direction : Str} {policies : List InternalPolicy}
    {u : Unit} (h : Exec (applyPolicies bo deps d.entryChain podInfo direction policies) es u)
    (hans : Answers ans es) : ∀ e ∈ es, e.Calls fun r =>
      (r.InFilter d.entry ∧ FlowRule bo r) ∨ ∃ p ∈ policies, PolicyCall bo d p.policy r := by
  intro e he
  rcases exec_applyPolicies h hans with ⟨-, rfl⟩ | ⟨-, ess, rfl, hess⟩
  · cases he
  · rcases List.mem_append.1 he with he | he
    · obtain ⟨es', hes', he⟩ := List.mem_flatten.1 he
      obtain ⟨p, hp, esR, hcalls, hexec, -⟩ := exists_mem_of_forall₂ hess hes'
      rw [hcalls] at he
      simp only [List.mem_cons, List.mem_append, appendCalls, List.map_cons, List.map_nil,
        List.not_mem_nil, or_false, jumpRules, List.map_map] at he
      rcases he with rfl | he | he | rfl
      · trivial
      · obtain ⟨i, -, rfl⟩ := List.mem_map.1 he
        refine .inl ⟨⟨rfl, rfl⟩, .verdict ⟨[.metaExpr (getMetaKeyInterface d.entry) false 1,
          .cmp .eq 1 (ifname i.interfaceName), .counter], .jump, _, ?_, rfl⟩⟩
        cases d <;> rfl
      · exact (calls_applyPolicyRules hexec e he).mono fun r hr => .inr ⟨p, hp, hr⟩
      · exact .inl ⟨⟨rfl, rfl⟩, .check rfl⟩
    · obtain rfl := List.mem_singleton.1 he
      exact .inl ⟨⟨rfl, rfl⟩, .verdict ⟨[.counter], .drop, [], rfl, rfl⟩⟩

/-- What a policy asks for in the entry chain. -/
theorem PolicyCalls.callsIn_entry {ans : Rule → Bool} {p : InternalPolicy} {esR : List Event}
    (h : PolicyCalls bo deps d podInfo ans p es esR) : callsIn filterTableName d.entry es =
      appendCalls ans (jumpRules d podInfo p ++ [checkRule bo d p]) := by
  have hnone : callsIn filterTableName d.entry esR = [] := callsIn_eq_nil fun e he =>
    (calls_applyPolicyRules h.exec e he).inChain_eq_false fun r hr => by
      obtain ⟨c, hc, hr⟩ := hr.mem_names
      exact hr.inChain_eq_false (ne_base_of_mem hc d.entry_mem_base)
  have hall : ∀ rs : List Rule, (∀ r ∈ rs, r.InFilter d.entry) →
      callsIn filterTableName d.entry (appendCalls ans rs) = appendCalls ans rs := by
    intro rs hrs
    refine List.filter_eq_self.2 fun e he => ?_
    obtain ⟨r, hr, rfl⟩ := List.mem_map.1 he
    exact Rule.inChain_iff.2 (hrs r hr)
  rw [h.calls, callsIn_cons_chain, callsIn_append, callsIn_append, hnone, List.nil_append,
    hall _ fun r hr => ?_, hall _ fun r hr => ?_, appendCalls_append]
  · obtain rfl := List.mem_singleton.1 hr
    exact ⟨rfl, rfl⟩
  · obtain ⟨i, -, rfl⟩ := List.mem_map.1 hr
    exact ⟨rfl, rfl⟩

/-- The calls of a direction for its entry chain. -/
theorem callsIn_applyPolicies {ans : Rule → Bool} {direction : Str} {policies : List InternalPolicy}
    {u : Unit} (h : Exec (applyPolicies bo deps d.entryChain podInfo direction policies) es u)
    (hans : Answers ans es) : callsIn filterTableName d.entry es =
      appendCalls ans (midRules bo d podInfo policies) ++ dropCalls ans d podInfo policies := by
  rcases exec_applyPolicies h hans with ⟨rfl, rfl⟩ | ⟨hne, ess, rfl, hess⟩
  · rfl
  · have hentries : List.Forall₂ (fun p e => callsIn filterTableName d.entry e =
        appendCalls ans (jumpRules d podInfo p ++ [checkRule bo d p])) policies ess :=
      hess.imp fun _ _ ⟨_, hp⟩ => hp.callsIn_entry
    have hdrop : (dropRule d).InFilter d.entry := ⟨rfl, rfl⟩
    rw [callsIn_append, callsIn_flatten, flatten_of_forall₂ hentries, callsIn_cons_rule hdrop]
    unfold midRules appendCalls dropCalls
    rw [List.map_flatMap, List.isEmpty_eq_false_iff.2 hne]
    rfl

/-- Outside the entry chain, a policy asks for the rules of its own chains only. -/
theorem PolicyCalls.callsIn_other {ans : Rule → Bool} {p : InternalPolicy} {esR : List Event}
    (h : PolicyCalls bo deps d podInfo ans p es esR) {c : Str} (hc : d.entry ≠ c) :
    callsIn filterTableName c es = callsIn filterTableName c esR := by
  have hnone : ∀ rs : List Rule, (∀ r ∈ rs, r.InFilter d.entry) →
      callsIn filterTableName c (appendCalls ans rs) = [] := by
    refine fun rs hrs => callsIn_eq_nil fun e he => ?_
    obtain ⟨r, hr, rfl⟩ := List.mem_map.1 he
    exact (hrs r hr).inChain_eq_false hc
  have hjumps : ∀ r ∈ jumpRules d podInfo p, r.InFilter d.entry := fun r hr => by
    obtain ⟨_, -, rfl⟩ := List.mem_map.1 hr
    exact ⟨rfl, rfl⟩
  have hcheck : ∀ r ∈ [checkRule bo d p], r.InFilter d.entry := fun r hr => by
    obtain rfl := List.mem_singleton.1 hr
    exact ⟨rfl, rfl⟩
  rw [h.calls, callsIn_cons_chain, callsIn_append, callsIn_append, hnone _ hjumps, hnone _ hcheck,
    List.nil_append, List.append_nil]

/-- A policy asks for nothing in other chains. -/
theorem PolicyCalls.callsIn_eq_nil {ans : Rule → Bool} {p : InternalPolicy} {esR : List Event}
    (h : PolicyCalls bo deps d podInfo ans p es esR) {c : Str} (hentry : d.entry ≠ c)
    (hc : c ∉ policyChainNames d p.policy) : callsIn filterTableName c es = [] := by
  rw [h.callsIn_other hentry]
  refine callsIn_eq_nil_of_calls (calls_applyPolicyRules h.exec) fun r hr => ?_
  obtain ⟨c', hc', hr⟩ := hr.mem_names
  refine ⟨c', hr, ?_⟩
  rintro rfl
  exact hc hc'

/-- The calls of a direction for a chain of one of its policies. -/
theorem exists_callsIn_applyPolicies {ans : Rule → Bool} {direction : Str}
    {policies l₁ l₂ : List InternalPolicy} {p : InternalPolicy} {c : Str} {u : Unit}
    (h : Exec (applyPolicies bo deps d.entryChain podInfo direction policies) es u)
    (hans : Answers ans es) (hl : policies = l₁ ++ p :: l₂) (hentry : d.entry ≠ c)
    (hothers : ∀ q ∈ l₁ ++ l₂, c ∉ policyChainNames d q.policy) :
    ∃ e esR, PolicyCalls bo deps d podInfo ans p e esR ∧ e ⊆ es ∧
      callsIn filterTableName c es = callsIn filterTableName c esR := by
  subst hl
  rcases exec_applyPolicies h hans with ⟨hnil, -⟩ | ⟨-, ess, rfl, hess⟩
  · simp at hnil
  · obtain ⟨ess₁, e, ess₂, rfl, hess₁, ⟨esR, hp⟩, hess₂⟩ := forall₂_middle hess
    -- the policies before and behind it ask for nothing in its chains
    have hnone : ∀ {l : List InternalPolicy} {ess : List (List Event)},
        (∀ q ∈ l, c ∉ policyChainNames d q.policy) →
        List.Forall₂ (fun p e => ∃ esR, PolicyCalls bo deps d podInfo ans p e esR) l ess →
        callsIn filterTableName c ess.flatten = [] := by
      intro l ess hl hess
      rw [callsIn_flatten, List.flatten_eq_nil_iff]
      intro x hx
      obtain ⟨e, he, rfl⟩ := List.mem_map.1 hx
      obtain ⟨q, hq, esR, hcalls⟩ := exists_mem_of_forall₂ hess he
      exact hcalls.callsIn_eq_nil hentry (hl q hq)
    have hdrop : callsIn filterTableName c
        [.rule (dropRule d) .addRule ((l₁ ++ p :: l₂).any fun p => (jumpRules d podInfo p).any ans)
          (ans (dropRule d))] = [] := by
      refine callsIn_eq_nil fun e he => ?_
      obtain rfl := List.mem_singleton.1 he
      have hr : (dropRule d).InFilter d.entry := ⟨rfl, rfl⟩
      exact hr.inChain_eq_false hentry
    refine ⟨e, esR, hp, fun x hx => ?_, ?_⟩
    · exact List.mem_append_left _ (List.mem_flatten.2 ⟨e, by simp, hx⟩)
    rw [callsIn_append, hdrop, List.append_nil, List.flatten_append, List.flatten_cons,
      callsIn_append, callsIn_append, hp.callsIn_other hentry,
      hnone (fun q hq => hothers q (List.mem_append_left _ hq)) hess₁,
      hnone (fun q hq => hothers q (List.mem_append_right _ hq)) hess₂, List.nil_append,
      List.append_nil]

end Render

end MultiNetPolicy
