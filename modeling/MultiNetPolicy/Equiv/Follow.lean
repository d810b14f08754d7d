import MultiNetPolicy.Equiv.Entry

/-!
# Interface rules and the check behind them

The check of a policy has to stand behind its interface rules: a packet that the chain of the policy
marked goes on to the check, which returns it.  A run appends the interface rules that are new, and
the check only when it is new too.  So the order holds as long as no policy whose check is already
there gets a new interface rule (`GainsNoInterface`), and it is lost in the first run in which one
does.

* `JumpsClosed`: the property, for the policies of a run.
* `jumps_closed_of_runs`: it holds in every history whose runs all meet the condition, and a further
  run keeps it exactly when it meets the condition.
-/

namespace MultiNetPolicy

open ByteString Reconcile

/-- A rule that jumps to a chain. -/
def Rule.jumpsTo (c : Str) (r : Rule) : Prop := .verdict .jump c ∈ r.exprs

/-- The entry chains start with the common jump, and every interface rule of a policy is followed by
the policy's check, with only jumps to the policy's own chain in between. -/
def JumpsClosed (bo : ByteOrder) (i : Input) (k : Kernel) : Prop :=
  ∀ d : Direction, (k.chainRules filterTableName d.entry).head? = some (commonRule d) ∧
    ∀ p ∈ i.policiesIn d, Closes (· ∈ jumpRules d i.sortedInfo p)
      (Rule.jumpsTo (chainNameOf d p.policy .policy)) (checkRule bo d p)
      (k.chainRules filterTableName d.entry)

/-- A policy whose check is already in the entry chain asks for no interface rule that is not. -/
def GainsNoInterface (bo : ByteOrder) (i : Input) (k : Kernel) : Prop :=
  ∀ d : Direction, ∀ p ∈ i.policiesIn d, checkRule bo d p ∈ k.chainRules filterTableName d.entry →
    ∀ j ∈ jumpRules d i.sortedInfo p, j ∈ k.chainRules filterTableName d.entry

instance (bo : ByteOrder) (i : Input) (k : Kernel) : Decidable (GainsNoInterface bo i k) :=
  inferInstanceAs (Decidable (∀ d : Direction, ∀ p ∈ i.policiesIn d,
    checkRule bo d p ∈ k.chainRules filterTableName d.entry →
      ∀ j ∈ jumpRules d i.sortedInfo p, j ∈ k.chainRules filterTableName d.entry))

section Closed

variable {bo : ByteOrder} {h : Host} {i i₀ : Input} {k : Kernel} {s : State} {es : List Event}
  {d : Direction} {body : List Rule} {p : InternalPolicy}

/-- Interface rules jump to the chain of their policy. -/
theorem jumpsTo_of_mem_jumpRules {podInfo : PodInfo} {r : Rule} (hr : r ∈ jumpRules d podInfo p) :
    r.jumpsTo (chainNameOf d p.policy .policy) := by
  obtain ⟨x, -, rfl⟩ := List.mem_map.1 hr
  simp only [Rule.jumpsTo, Render.podInterfaceRule, newRule, List.mem_cons, List.not_mem_nil,
    or_false, reduceCtorEq, false_or]
  rfl

/-- The rules of a run, in the order in which they are asked for. -/
theorem closes_midRules {podInfo : PodInfo} (policies : List InternalPolicy) (p : InternalPolicy) :
    Closes (· ∈ jumpRules d podInfo p) (Rule.jumpsTo (chainNameOf d p.policy .policy))
      (checkRule bo d p) (midRules bo d podInfo policies) := by
  unfold midRules
  rw [List.flatMap_def]
  refine Closes.flatten fun block hblock => ?_
  obtain ⟨q, -, rfl⟩ := List.mem_map.1 hblock
  by_cases hshared : ∃ j ∈ jumpRules d podInfo q, j ∈ jumpRules d podInfo p
  · -- a shared interface rule: the check and the chain are the same
    obtain ⟨j, hq, hp⟩ := hshared
    obtain ⟨hcheck, hchain⟩ := @check_eq_of_jump_eq bo _ _ _ _ _ _ hq hp
    rw [hcheck]
    refine Closes.concat (fun x hx => ?_) (checkRule_not_mem_jumpRules p p)
    rw [← hchain]
    exact jumpsTo_of_mem_jumpRules hx
  · refine Closes.of_none fun x hx hmem => ?_
    rcases List.mem_append.1 hx with hx | hx
    · exact hshared ⟨x, hx, hmem⟩
    · rw [List.mem_singleton.1 hx] at hmem
      exact checkRule_not_mem_jumpRules q p hmem

/-- A property of the middle of an entry chain is one of the chain. -/
theorem EntryShape.closes (hs : EntryShape bo d k i body)
    (hc : Closes (· ∈ jumpRules d i.sortedInfo p) (Rule.jumpsTo (chainNameOf d p.policy .policy))
      (checkRule bo d p) body) :
    Closes (· ∈ jumpRules d i.sortedInfo p) (Rule.jumpsTo (chainNameOf d p.policy .policy))
      (checkRule bo d p) (k.chainRules filterTableName d.entry) := by
  -- jumps stand between the first and the last rule of the chain
  have hmiddle : ∀ r ∈ jumpRules d i.sortedInfo p, r.isMiddle = true := by
    intro r hr
    obtain ⟨x, -, rfl⟩ := List.mem_map.1 hr
    rfl
  have hfirst : Closes (· ∈ jumpRules d i.sortedInfo p)
      (Rule.jumpsTo (chainNameOf d p.policy .policy)) (checkRule bo d p) [commonRule d] := by
    refine Closes.of_none fun x hx hmem => ?_
    have hmid := hmiddle x hmem
    rw [List.mem_singleton.1 hx, commonRule_not_isMiddle] at hmid
    cases hmid
  have hlast : Closes (· ∈ jumpRules d i.sortedInfo p)
      (Rule.jumpsTo (chainNameOf d p.policy .policy)) (checkRule bo d p)
      (endRules d (i.policiesIn d)) := by
    refine Closes.of_none fun x hx hmem => ?_
    have hmid := hmiddle x hmem
    rcases endRules_cases d (i.policiesIn d) with hend | hend <;> rw [hend] at hx
    · cases hx
    · rw [List.mem_singleton.1 hx, dropRule_not_isMiddle] at hmid
      cases hmid
  rw [hs.chain]
  exact hfirst.append (hc.append hlast)

/-- The order in the middle of an entry chain. -/
structure OrderedShape (bo : ByteOrder) (d : Direction) (k : Kernel) (i : Input)
    (body : List Rule) : Prop extends EntryShape bo d k i body where
  closes_body : ∀ p ∈ i.policiesIn d, Closes (· ∈ jumpRules d i.sortedInfo p)
    (Rule.jumpsTo (chainNameOf d p.policy .policy)) (checkRule bo d p) body

/-- What was in order stays in order for the policies of the next run. -/
theorem OrderedShape.closes_next (hs : OrderedShape bo d k i₀ body) (podInfo : PodInfo)
    (p : InternalPolicy) : Closes (· ∈ jumpRules d podInfo p)
      (Rule.jumpsTo (chainNameOf d p.policy .policy)) (checkRule bo d p) body := by
  intro l₁ j l₂ heq hj
  -- the interface rule is one of a policy of the run before
  have hmem : j ∈ body := by
    rw [heq]
    simp
  obtain ⟨p₀, hp₀, hj₀⟩ := mem_midRules.1 ((hs.mem j).1 hmem)
  rcases hj₀ with hj₀ | rfl
  · obtain ⟨hcheck, hchain⟩ := @check_eq_of_jump_eq bo _ _ _ _ _ _ hj hj₀
    rw [hcheck, hchain]
    exact hs.closes_body p₀ hp₀ l₁ j l₂ heq hj₀
  · exact absurd hj (checkRule_not_mem_jumpRules p₀ p)

theorem isMiddle_checkRule (bo : ByteOrder) (d : Direction) (p : InternalPolicy) :
    (checkRule bo d p).isMiddle = true := rfl

theorem checkRule_mem_midRules {podInfo : PodInfo} {policies : List InternalPolicy}
    (hp : p ∈ policies) : checkRule bo d p ∈ midRules bo d podInfo policies :=
  mem_midRules.2 ⟨p, hp, .inr rfl⟩

/-- **A run that meets the condition keeps the order.** -/
theorem Ran.orderedShape (hr : Ran h i k s es) (hkeys : KeysTell h k s)
    (hgain : GainsNoInterface h.byteOrder i k) (hs : OrderedShape h.byteOrder d k i₀ body) :
    OrderedShape h.byteOrder d s.kernel i
      (reconcile body (midRules h.byteOrder d i.sortedInfo (i.policiesIn d))) := by
  refine ⟨hr.entryShape hkeys hs.toEntryShape, fun p hp => ?_⟩
  refine (hs.closes_next i.sortedInfo p).reconcile (closes_midRules _ p)
    (checkRule_mem_midRules hp) fun hcheck j hj hjump => ?_
  rw [← hs.mem_body (isMiddle_of_mem_midRules hj)]
  exact hgain d p hp ((hs.mem_body (isMiddle_checkRule _ _ _)).2 hcheck) j hjump

/-- A run that keeps the order meets the condition. -/
theorem Ran.gainsNoInterface (hr : Ran h i k s es) (hkeys : KeysTell h k s)
    (hs : EntryShape h.byteOrder d k i₀ body) (hclosed : JumpsClosed h.byteOrder i s.kernel)
    (hp : p ∈ i.policiesIn d)
    (hcheck : checkRule h.byteOrder d p ∈ k.chainRules filterTableName d.entry) {j : Rule}
    (hj : j ∈ jumpRules d i.sortedInfo p) : j ∈ k.chainRules filterTableName d.entry := by
  have hmem : j ∈ midRules h.byteOrder d i.sortedInfo (i.policiesIn d) :=
    mem_midRules.2 ⟨p, hp, .inl hj⟩
  have hc := (hclosed d).2 p hp
  rw [(hr.entryShape hkeys hs).chain, ← List.singleton_append] at hc
  have hback : checkRule h.byteOrder d p ∉ endRules d (i.policiesIn d) := by
    intro hin
    rcases endRules_cases d (i.policiesIn d) with hend | hend <;> rw [hend] at hin
    · cases hin
    · have hmid := isMiddle_checkRule h.byteOrder d p
      rw [List.mem_singleton.1 hin, dropRule_not_isMiddle] at hmid
      cases hmid
  rw [hs.mem_body (isMiddle_checkRule _ _ _)] at hcheck
  rw [hs.mem_body (isMiddle_of_mem_midRules hmem)]
  exact Closes.mem_of_reconcile hc hback hcheck hmem hj

end Closed

/-! ### Histories -/

/-- What the entry chain of a direction looks like in a history in which the order is kept. -/
def OrderedInv (bo : ByteOrder) (d : Direction) (k : Kernel) (last : Option Input) : Prop :=
  match last with
  | none => k.chainRules filterTableName d.entry = []
  | some i => ∃ body, OrderedShape bo d k i body

section Histories

variable {bo : ByteOrder} {h : Host} {i : Input} {k : Kernel} {s : State} {es : List Event}
  {d : Direction} {last : Option Input}

/-- One run. -/
theorem OrderedInv.run (hi : OrderedInv h.byteOrder d k last) (hr : Ran h i k s es)
    (hkeys : KeysTell h k s) (hgain : GainsNoInterface h.byteOrder i k) :
    OrderedInv h.byteOrder d s.kernel (some i) := by
  cases last with
  | none => exact ⟨_, hr.entryShape_start hkeys hi, fun p _ => closes_midRules _ p⟩
  | some i₀ =>
    obtain ⟨body, hs⟩ := hi
    exact ⟨_, hr.orderedShape hkeys hgain hs⟩

/-- What the invariant is for. -/
theorem jumpsClosed_of_orderedInv (hi : ∀ d, OrderedInv bo d k (some i)) : JumpsClosed bo i k := by
  intro d
  obtain ⟨body, hs⟩ := hi d
  refine ⟨?_, fun p hp => hs.closes (hs.closes_body p hp)⟩
  rw [hs.chain]
  rfl

/-- **Every interface rule is followed by its check** in every history in which no policy gains an
interface while its check is in place; the first run in which one does breaks the order. -/
theorem jumps_closed_of_runs
    (hr : Runs bo (fun h i k s => KeysTell h k s ∧ GainsNoInterface bo i k) k last) :
    (∀ i, last = some i → JumpsClosed bo i k) ∧
    ∀ (h : Host) (i : Input) (s : State), h.byteOrder = bo →
      applyPolicyRulesForPodAndFamily h i (State.new k) = .ok () s → KeysTell h k s →
      (JumpsClosed bo i s.kernel ↔ GainsNoInterface bo i k) := by
  -- every run keeps the order of the entry chains
  have hinv : ∀ d, OrderedInv bo d k last := by
    refine hr.invariant (I := fun k last => ∀ d, OrderedInv bo d k last)
      (fun _ hempty d => hempty.chainRules (by decide) d.entry) ?_
    rintro h i k last s wf rfl hs ⟨hkeys, hgain⟩ hinv d
    obtain ⟨es, hran⟩ := exists_ran wf hs
    exact (hinv d).run hran hkeys hgain
  constructor
  · rintro i rfl
    exact jumpsClosed_of_orderedInv hinv
  · rintro h i s rfl hs hkeys
    obtain ⟨es, hran⟩ := exists_ran hr.wf hs
    constructor
    · intro hclosed d p hp hcheck j hj
      cases last with
      | none =>
        have hempty : k.chainRules filterTableName d.entry = [] := hinv d
        rw [hempty] at hcheck
        cases hcheck
      | some i₀ =>
        obtain ⟨body, hshape⟩ := hinv d
        exact hran.gainsNoInterface hkeys hshape.toEntryShape hclosed hp hcheck hj
    · intro hgain
      exact jumpsClosed_of_orderedInv fun d => (hinv d).run hran hkeys hgain

end Histories

/-- A policy for two networks. -/
def twoNetworks : InternalPolicy where
  policy := ingressPolicy (str "web") isDNS1123Subdomain_web (str "net1,net2") []
  policyNetworks := [str "default/net1", str "default/net2"]

/-- A pod with some interfaces under this policy. -/
def twoNetworksInput (interfaces : List Str) : Input :=
  podInput interfaces (onePolicy twoNetworks.policy)

set_option maxRecDepth 100000 in
/-- The pod has both interfaces from the start and loses one of them: in the second run the check is
in place, and so is the one interface rule that is still asked for. -/
theorem lost_interface_stays_closed : ∃ s₁ s₂,
    applyPolicyRulesForPodAndFamily Host.reliable (twoNetworksInput [str "net1", str "net2"])
      (State.new Kernel.empty) = .ok () s₁ ∧
    applyPolicyRulesForPodAndFamily Host.reliable (twoNetworksInput [str "net1"])
      (State.new s₁.kernel) = .ok () s₂ ∧
    (∃ p ∈ (twoNetworksInput [str "net1"]).policiesIn .ingress,
      checkRule .little .ingress p ∈ s₁.kernel.chainRules filterTableName ingressChain) ∧
    Runs .little (fun h i k s => KeysTell h k s ∧ GainsNoInterface .little i k) s₂.kernel
      (some (twoNetworksInput [str "net1"])) ∧
    JumpsClosed .little (twoNetworksInput [str "net1"]) s₂.kernel := by
  have hrun : (outcome Host.reliable (twoNetworksInput [str "net1", str "net2"]) Kernel.empty).any
      (fun s₁ => (outcome Host.reliable (twoNetworksInput [str "net1"]) s₁.kernel).any fun s₂ =>
        decide ((KeysTell Host.reliable Kernel.empty s₁ ∧ GainsNoInterface .little
            (twoNetworksInput [str "net1", str "net2"]) Kernel.empty) ∧
          (KeysTell Host.reliable s₁.kernel s₂ ∧
            GainsNoInterface .little (twoNetworksInput [str "net1"]) s₁.kernel) ∧
          ∃ p ∈ (twoNetworksInput [str "net1"]).policiesIn .ingress,
            checkRule .little .ingress p ∈
              s₁.kernel.chainRules filterTableName ingressChain)) = true := by
    decide +kernel
  obtain ⟨s₁, hs₁, hrun⟩ := (Option.any_eq_true _ _).1 hrun
  obtain ⟨s₂, hs₂, hrun⟩ := (Option.any_eq_true _ _).1 hrun
  obtain ⟨hcond₁, hcond₂, hcheck⟩ := of_decide_eq_true hrun
  rw [outcome_eq_some] at hs₁ hs₂
  have hruns : Runs .little (fun h i k s => KeysTell h k s ∧ GainsNoInterface .little i k)
      s₂.kernel (some (twoNetworksInput [str "net1"])) :=
    .run (.run (.start .empty .empty) rfl hs₁ hcond₁) rfl hs₂ hcond₂
  exact ⟨s₁, s₂, hs₁, hs₂, hcheck, hruns, (jumps_closed_of_runs hruns).1 _ rfl⟩

/-- The interface rule of this policy for one of its networks. -/
def twoNetworksJump (name : Str) : Rule :=
  Render.podInterfaceRule Direction.ingress.entryChain
    (policyChainOf ingressChain twoNetworks.policy) twoNetworks.policy (netInterface name)

set_option maxRecDepth 100000 in
/-- The pod gets its second interface after the first run: the new interface rule stands between
the check and the drop. -/
theorem second_interface_not_closed : ∃ s₁ s₂,
    applyPolicyRulesForPodAndFamily Host.reliable (twoNetworksInput [str "net1"])
      (State.new Kernel.empty) = .ok () s₁ ∧
    applyPolicyRulesForPodAndFamily Host.reliable (twoNetworksInput [str "net1", str "net2"])
      (State.new s₁.kernel) = .ok () s₂ ∧
    KeysTell Host.reliable Kernel.empty s₁ ∧ KeysTell Host.reliable s₁.kernel s₂ ∧
    s₂.kernel.chainRules filterTableName ingressChain =
      [commonRule .ingress, twoNetworksJump (str "net1"), checkRule .little .ingress twoNetworks,
        twoNetworksJump (str "net2"), dropRule .ingress] ∧
    ¬JumpsClosed .little (twoNetworksInput [str "net1", str "net2"]) s₂.kernel := by
  have hrun : (outcome Host.reliable (twoNetworksInput [str "net1"]) Kernel.empty).any (fun s₁ =>
      (outcome Host.reliable (twoNetworksInput [str "net1", str "net2"]) s₁.kernel).any fun s₂ =>
        decide (KeysTell Host.reliable Kernel.empty s₁ ∧ KeysTell Host.reliable s₁.kernel s₂ ∧
          s₂.kernel.chainRules filterTableName ingressChain =
            [commonRule .ingress, twoNetworksJump (str "net1"),
              checkRule .little .ingress twoNetworks, twoNetworksJump (str "net2"),
              dropRule .ingress])) = true := by
    decide +kernel
  obtain ⟨s₁, hs₁, hrun⟩ := (Option.any_eq_true _ _).1 hrun
  obtain ⟨s₂, hs₂, hrun⟩ := (Option.any_eq_true _ _).1 hrun
  rw [outcome_eq_some] at hs₁ hs₂
  obtain ⟨hkeys₁, hkeys₂, hchain⟩ := of_decide_eq_true hrun
  refine ⟨s₁, s₂, hs₁, hs₂, hkeys₁, hkeys₂, hchain, fun hclosed => ?_⟩
  have hpolicy : ∃ p ∈ (twoNetworksInput [str "net1", str "net2"]).policiesIn .ingress,
      twoNetworksJump (str "net2") ∈
        jumpRules .ingress (twoNetworksInput [str "net1", str "net2"]).sortedInfo p := by
    decide +kernel
  obtain ⟨p, hp, hjump⟩ := hpolicy
  -- only the drop is behind the interface rule
  have hsplit := hchain.trans
    (List.append_cons [commonRule .ingress, twoNetworksJump (str "net1"),
      checkRule .little .ingress twoNetworks] (twoNetworksJump (str "net2"))
      [dropRule .ingress]).symm
  obtain ⟨js, rest, heq, -⟩ := (hclosed .ingress).2 p hp _ _ _ hsplit hjump
  have hmem : checkRule .little .ingress p ∈ [dropRule .ingress] := by
    rw [heq]
    simp
  have hmid := isMiddle_checkRule .little .ingress p
  rw [List.mem_singleton.1 hmem, dropRule_not_isMiddle] at hmid
  cases hmid

end MultiNetPolicy
