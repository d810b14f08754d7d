import MultiNetPolicy.Equiv.Installed

/-!
# The base chains

Packets come to the entry chains through the base chains `input` and `output`, each of which has
one rule: a packet on an interface of the pod jumps to the entry chain of its direction.

* `shallow_of_targets`: how deep calls nest, read off the chains that the rules can lead to
  (`Rule.targets`).
* `Hooked`: the base chains and the chains behind them hold what the runs asked for.
* `Hooked.shallow`: from a base chain the calls nest four deep, far below the bound of the kernel.
* `Hooked.eval`: what becomes of a packet at a base chain.
-/

namespace MultiNetPolicy

open ByteString ChainMachine Render

/-! ### Where rules lead -/

section Targets

variable {bo : ByteOrder} {k : Kernel} {pkt : Packet} {t : Str}

/-- A jump is a verdict of the rule. -/
theorem evalExpr_verdict {e : Expr} {regs : Registers} {m : BitVec 32} {a : Action Str}
    (h : evalExpr bo k pkt t e regs m = .verdict a) {c : Str} (ha : a = .jump c ∨ a = .goto c) :
    e.target? = some c := by
  -- loads and comparisons give no verdict
  have hload : ∀ (reg : Nat) (value : Option Str),
      ExprResult.load reg value regs m ≠ .verdict a := by
    intro reg value
    cases value <;> simp [ExprResult.load]
  have hguard : ∀ b : Bool, ExprResult.guard b regs m ≠ .verdict a := by
    intro b
    cases b <;> simp [ExprResult.guard]
  cases e with
  | verdict kind chain =>
    cases kind <;> simp only [evalExpr, verdictAction, ExprResult.verdict.injEq, reduceCtorEq] at h
      <;> subst h <;> simp_all [Expr.target?]
  | metaExpr key source reg =>
    cases source with
    | false => exact absurd h (hload _ _)
    | true =>
      cases key with
      | mark =>
        rw [evalExpr] at h
        split at h <;> cases h
      | _ => cases h
  | lookup reg name id => exact absurd h (hguard _)
  | cmp op reg data => exact absurd h (hguard _)
  | payload reg base offset len => exact absurd h (hload _ _)
  | bitwise src dst len mask xor => exact absurd h (hload _ _)
  | ct reg source key =>
    cases source with
    | true => cases h
    | false =>
      cases key with
      | state =>
        rw [evalExpr] at h
        exact absurd h (hload _ _)
      | _ => cases h
  | counter => cases h
  | foreign name hashed => cases h

/-- A rule jumps to one of its targets. -/
theorem mem_targets_of_evalExprs {es : List Expr} {regs : Registers} {m : BitVec 32} {c : Str}
    (h : (evalExprs bo k pkt t es regs m).2 = .jump c ∨
      (evalExprs bo k pkt t es regs m).2 = .goto c) : c ∈ es.filterMap Expr.target? := by
  induction es generalizing regs m with
  | nil => rcases h with h | h <;> cases h
  | cons e es ih =>
    rw [evalExprs] at h
    cases he : evalExpr bo k pkt t e regs m with
    | next regs' m' =>
      rw [he] at h
      obtain ⟨x, hx, heq⟩ := List.mem_filterMap.1 (ih h)
      exact List.mem_filterMap.2 ⟨x, List.mem_cons_of_mem _ hx, heq⟩
    | mismatch =>
      rw [he] at h
      rcases h with h | h <;> cases h
    | verdict a =>
      rw [he] at h
      exact List.mem_filterMap.2 ⟨e, List.mem_cons_self .., evalExpr_verdict he h⟩

/-- Chains nest as their rules lead on. -/
theorem shallow_of_targets {depth : Nat} {c : Str}
    (h : ∀ r ∈ k.chainRules t c, ∀ c' ∈ r.targets, Shallow (tableMachine bo k pkt t) depth c') :
    Shallow (tableMachine bo k pkt t) (depth + 1) c :=
  fun r hr _ c' hc' => h r hr c' (mem_targets_of_evalExprs hc')

/-- A chain whose rules lead nowhere. -/
theorem shallow_of_no_targets {c : Str} (h : ∀ r ∈ k.chainRules t c, r.targets = []) :
    Shallow (tableMachine bo k pkt t) 1 c := by
  refine shallow_of_targets fun r hr c' hc' => ?_
  rw [h r hr] at hc'
  cases hc'

theorem filterMap_target_guards {g : List Expr} (hg : g.all Expr.isGuard = true) :
    g.filterMap Expr.target? = [] := by
  rw [List.filterMap_eq_nil_iff]
  intro e he
  have hguard := List.all_eq_true.1 hg e he
  cases e with
  | verdict kind chain => cases hguard
  | _ => rfl

/-- Guards in front of a rule do not lead anywhere. -/
theorem targets_of_guards {r : Rule} {g rest : List Expr} (hg : g.all Expr.isGuard = true)
    (hr : r.exprs = g ++ rest) : r.targets = rest.filterMap Expr.target? := by
  rw [Rule.targets, hr, List.filterMap_append, filterMap_target_guards hg, List.nil_append]

theorem PortsRule.targets_eq {r : Rule} (hr : PortsRule bo r) : r.targets = [] := by
  obtain ⟨g, hg, hexprs⟩ := hr
  exact targets_of_guards hg hexprs

theorem AcceptRule.targets_eq {r : Rule} (hr : AcceptRule r) : r.targets = [] := by
  obtain ⟨g, hg, hexprs⟩ := hr
  exact targets_of_guards hg hexprs

/-- Rules for peers lead nowhere. -/
theorem PeersRule.targets_eq {peers : List MultiNetworkPolicyPeer} {r : Rule}
    (hr : PeersRule bo peers r) : r.targets = [] := by
  cases hr with
  | all hnone hr =>
    rw [Rule.targets, hr]
    rfl
  | peer hr =>
    obtain ⟨g, hg, hexprs⟩ := hr
    rw [List.append_assoc] at hexprs
    exact targets_of_guards hg hexprs
  | except hex hr =>
    obtain ⟨g, hg, hexprs⟩ := hr
    exact targets_of_guards hg hexprs

end Targets

/-! ### How deep the chains nest -/

section Depth

variable {bo : ByteOrder} {i : Input} {d : Direction} {k : Kernel} {pkt : Packet}

/-- From a policy chain the calls nest two deep. -/
theorem Rendered.shallow_policy (hk : Rendered bo i d k) {p : InternalPolicy}
    (hp : p ∈ i.policiesIn d) :
    Shallow (tableMachine bo k pkt filterTableName) 2 (chainNameOf d p.policy .policy) := by
  refine shallow_of_targets fun r hr c hc => ?_
  rw [hk.policy p hp, policyRules_eq] at hr
  obtain ⟨index, hindex, hr⟩ := List.mem_flatMap.1 hr
  rw [List.mem_range] at hindex
  have hports := fun r hr => (hk.ports p hp index hindex r hr).targets_eq
  have hpeers := fun r hr => (hk.peers p hp index hindex r hr).targets_eq
  -- of the four rules of a block, two jump
  simp only [policyBlock, blockRules, List.mem_cons, List.not_mem_nil, or_false] at hr
  rcases hr with rfl | rfl | rfl | rfl
  · cases hc
  · rw [List.mem_singleton.1 hc, portsChainOf_name]
    exact shallow_of_no_targets hports
  · rw [List.mem_singleton.1 hc, peersChainOf_name]
    exact shallow_of_no_targets hpeers
  · cases hc

/-- From an entry chain they nest three deep. -/
theorem Rendered.shallow_entry (hk : Rendered bo i d k) :
    Shallow (tableMachine bo k pkt filterTableName) 3 d.entry := by
  have hcommon : Shallow (tableMachine bo k pkt filterTableName) 2 d.commonChain.name := by
    refine shallow_of_targets fun r hr c hc => ?_
    rw [(hk.common r hr).targets_eq] at hc
    cases hc
  refine shallow_of_targets fun r hr c hc => ?_
  rw [hk.entry, List.mem_cons, List.mem_append] at hr
  -- the common jump, the part of a policy, the drop
  rcases hr with rfl | hr | hr
  · have htargets : (commonRule d).targets = [d.commonChain.name] := by cases d <;> rfl
    rw [htargets, List.mem_singleton] at hc
    rw [hc]
    exact hcommon
  · obtain ⟨p, hp, hr⟩ := List.mem_flatMap.1 hr
    rcases List.mem_append.1 hr with hr | hr
    · obtain ⟨e, -, rfl⟩ := List.mem_map.1 hr
      rw [List.mem_singleton.1 hc]
      exact hk.shallow_policy hp
    · rw [List.mem_singleton.1 hr] at hc
      cases hc
  · rcases endRules_cases d (i.policiesIn d) with hend | hend
    · rw [hend] at hr
      cases hr
    · rw [hend] at hr
      rw [List.mem_singleton.1 hr] at hc
      cases hc

end Depth

/-! ### The rule of a base chain -/

/-- The base chain of a direction. -/
def Direction.hook : Direction → Chain
  | .ingress => ⟨filterTableName, str "input", some ⟨str "filter", str "input", 0⟩⟩
  | .egress => ⟨filterTableName, str "output", some ⟨str "filter", str "output", 0⟩⟩

/-- The rule of a base chain, for the set of interfaces. -/
def hookRule (set : NftSet) : Direction → Rule
  | .ingress => newRule Direction.ingress.hook inputInterfaceFilterComment
      (interfaceIn .iifname set ++ [.counter, .verdict .jump ingressChain])
  | .egress => newRule Direction.egress.hook outputInterfaceFilterComment
      (interfaceIn .oifname set ++ [.counter, .verdict .jump egressChain])

/-- A packet comes in or goes out on an interface of the pod. -/
def Input.Serves (i : Input) (pkt : Packet) (d : Direction) : Prop :=
  ∃ e ∈ i.podInfo.interfaces, ifname e.interfaceName = pkt.ifaceName d

instance (i : Input) (pkt : Packet) (d : Direction) : Decidable (i.Serves pkt d) :=
  inferInstanceAs (Decidable (∃ e ∈ i.podInfo.interfaces, ifname e.interfaceName = pkt.ifaceName d))

/-- What the set of the interfaces contains. -/
theorem setContains_interfaces (l : List InterfaceInfo) (n : Nat) (key : Str) :
    setContains false (interfaceSetElements n l) key =
      l.any fun e => ifname e.interfaceName == key := by
  unfold setContains
  induction l generalizing n with
  | nil => rfl
  | cons e l ih =>
    have hrest := ih (n + 1)
    simp only [Bool.false_eq_true, if_false] at hrest ⊢
    rw [interfaceSetElements, List.any_cons, List.any_cons, hrest]

/-- The rules for the base chains and the set that they look up. -/
theorem exists_hookCalls {bo : ByteOrder} {interfaces : List InterfaceInfo} {es : List Event}
    {n : NftState} (h : Exec (bootstrapNetfilterRules bo interfaces) es n) :
    ∃ set fresh, (set.table = filterTableName ∧ set.name = podInterfacesName ∧
        set.interval = false) ∧ .set set (interfaceSetElements 0 interfaces) fresh ∈ es ∧
      ∀ d : Direction, ∃ b, callsIn filterTableName d.hook.name es =
        [.rule (hookRule set d) .insertRule false b] := by
  simp only [bootstrapNetfilterRules, exec_bind, exec_wrapErr, exec_updateSet, exec_updateRule,
    exec_pure, exec_bootstrapNetfilterChains] at h
  obtain ⟨_, _, _, ⟨rfl, rfl⟩, ⟨_, _, _, ⟨id₁, fresh₁, -, rfl, rfl⟩, ⟨b₁, _, _, rfl, ⟨b₂, _, _, rfl,
    ⟨_, _, _, ⟨id₂, fresh₂, -, rfl, rfl⟩, ⟨b₃, _, _, rfl, ⟨b₄, _, _, rfl, ⟨b₅, _, _, rfl,
      ⟨rfl, rfl⟩, rfl⟩, rfl⟩, rfl⟩, rfl⟩, rfl⟩, rfl⟩, rfl⟩, rfl⟩ := h
  refine ⟨_, fresh₁, ⟨rfl, rfl, rfl⟩, List.mem_append_right _ (.head _), fun d => ?_⟩
  cases d with
  | ingress => exact ⟨b₁, rfl⟩
  | egress => exact ⟨b₂, rfl⟩

/-- The calls for a base chain. -/
theorem callsIn_hook {bo : ByteOrder} {i : Input} {es : List Event} {ans : Rule → Bool} {u : Unit}
    (h : Exec (renderInput bo i) es u) (hans : Answers ans es) :
    ∃ set fresh, (set.table = filterTableName ∧ set.name = podInterfacesName ∧
        set.interval = false) ∧
      .set set (interfaceSetElements 0 i.sortedInfo.interfaces) fresh ∈ es ∧
      ∀ d : Direction, ∃ b, callsIn filterTableName d.hook.name es =
        [.rule (hookRule set d) .insertRule false b] := by
  obtain ⟨es₁, es₂, es₃, es₄, rfl, h₁, h₂, h₃, h₄⟩ := exec_renderInput h
  simp only [Answers.append_iff] at hans
  obtain ⟨hans₁, -, hans₃, hans₄⟩ := hans
  obtain ⟨set, fresh, hset, he, hcalls⟩ := exists_hookCalls h₁
  refine ⟨set, fresh, hset, List.mem_append_left _ he, fun d => ?_⟩
  obtain ⟨b, hb⟩ := hcalls d
  refine ⟨b, ?_⟩
  -- only the bootstrap asks for rules in a base chain
  have hcommon : callsIn filterTableName d.hook.name es₂ = [] := by
    refine callsIn_eq_nil_of_calls (calls_of_emits h₂ emits_applyCommonChainRules) ?_
    rintro r ⟨d', hr, -⟩
    exact ⟨_, hr, by cases d <;> cases d' <;> decide⟩
  have hpolicies : ∀ (d' : Direction) {direction : Str} {es' : List Event},
      Exec (applyPolicies bo i.deps d'.entryChain i.sortedInfo direction (i.policiesIn d')) es' () →
      Answers ans es' → callsIn filterTableName d.hook.name es' = [] := by
    intro d' direction es' h' hans'
    refine callsIn_eq_nil_of_calls (calls_applyPolicies h' hans') fun r hr => ?_
    rcases hr with hr | ⟨p, -, hr⟩
    · exact ⟨_, hr.1, by cases d <;> cases d' <;> decide⟩
    · obtain ⟨c, hc, hr⟩ := hr.mem_names
      exact ⟨c, hr, ne_base_of_mem hc (by cases d <;> decide)⟩
  rw [callsIn_append, callsIn_append, callsIn_append, hb, hcommon, hpolicies .ingress h₃ hans₃,
    hpolicies .egress h₄ hans₄, List.append_nil, List.append_nil, List.append_nil]

/-! ### What the base chains do -/

/-- The base chains hold their rule, and the set that it looks up the interfaces of the pod. -/
structure Hooked (i : Input) (k : Kernel) : Prop where
  chain : ∀ d : Direction, ∃ set, set.name = podInterfacesName ∧
    k.chainRules filterTableName d.hook.name = [(hookRule set d).content]
  interfaces : ∀ key, k.lookupSet filterTableName podInterfacesName key =
    i.podInfo.interfaces.any fun e => ifname e.interfaceName == key

section Hooked

variable {bo : ByteOrder} {i : Input} {d : Direction} {k : Kernel} {pkt : Packet}

/-- The rule of a base chain. -/
theorem exec_hookRule (set : NftSet) (m : BitVec 32) :
    (tableMachine bo k pkt filterTableName).exec (hookRule set d).content m =
      (m, if k.lookupSet filterTableName set.name (pkt.ifaceName d) then .jump d.entry
        else .next) := by
  have hany : ∀ v : Str, (some v).any (k.lookupSet filterTableName set.name) =
      k.lookupSet filterTableName set.name v := fun v => rfl
  cases d with
  | ingress =>
    show evalExprs bo k pkt filterTableName
      [.metaExpr .iifname false 1, .lookup 1 set.name 0, .counter,
      .verdict .jump ingressChain] _ m = _
    simp only [evalExprs, evalExpr, Packet.metaValue, ExprResult.load, Function.update_self, hany]
    show _ = (m, if k.lookupSet filterTableName set.name pkt.iifname = true then _ else _)
    cases k.lookupSet filterTableName set.name pkt.iifname <;> rfl
  | egress =>
    show evalExprs bo k pkt filterTableName
      [.metaExpr .oifname false 1, .lookup 1 set.name 0, .counter,
      .verdict .jump egressChain] _ m = _
    simp only [evalExprs, evalExpr, Packet.metaValue, ExprResult.load, Function.update_self, hany]
    show _ = (m, if k.lookupSet filterTableName set.name pkt.oifname = true then _ else _)
    cases k.lookupSet filterTableName set.name pkt.oifname <;> rfl

/-- A packet is found when it is on an interface of the pod. -/
theorem Hooked.lookup_iff (hk : Hooked i k) :
    k.lookupSet filterTableName podInterfacesName (pkt.ifaceName d) = true ↔ i.Serves pkt d := by
  rw [hk.interfaces, List.any_eq_true]
  simp only [beq_iff_eq]
  exact Iff.rfl

/-- Calls from a base chain are nested four deep. -/
theorem Hooked.shallow (hk : Hooked i k) (hr : Rendered bo i d k) :
    Shallow (tableMachine bo k pkt filterTableName) 4 d.hook.name := by
  obtain ⟨set, -, hchain⟩ := hk.chain d
  refine shallow_of_targets fun r hmem c hc => ?_
  rw [hchain, List.mem_singleton] at hmem
  have htargets : (hookRule set d).content.targets = [d.entry] := by cases d <;> rfl
  rw [hmem, htargets, List.mem_singleton] at hc
  rw [hc]
  exact hr.shallow_entry

/-- **A packet at a base chain** goes to the entry chain when it is on an interface of the pod, and
else leaves as it came. -/
theorem Hooked.eval (hk : Hooked i k) (hr : Rendered bo i d k) (m : BitVec 32) :
    evalChain bo k pkt filterTableName d.hook.name m =
      if i.Serves pkt d then evalChain bo k pkt filterTableName d.entry m else (m, .done) := by
  obtain ⟨set, hname, hchain⟩ := hk.chain d
  -- the base chain calls the entry chain with one level less, which does not matter
  have hentry : ∀ m, ChainMachine.evalChain (tableMachine bo k pkt filterTableName) 15 d.entry m =
      evalChain bo k pkt filterTableName d.entry m := by
    intro m
    have hbound : ∀ depth, 3 ≤ depth →
        ChainMachine.evalChain (tableMachine bo k pkt filterTableName)
        depth d.entry m =
          ChainMachine.evalChain (tableMachine bo k pkt filterTableName) 3 d.entry m :=
      fun depth hd => hr.shallow_entry.evalChain_eq hd m
    rw [evalChain, hbound 15 (by decide), hbound jumpStackSize (by decide)]
  have hflow : flow (tableMachine bo k pkt filterTableName) (ChainMachine.evalChain
      (tableMachine bo k pkt filterTableName) 15) (k.chainRules filterTableName d.hook.name) m =
      if i.Serves pkt d then ((evalChain bo k pkt filterTableName d.entry m).1,
        if (evalChain bo k pkt filterTableName d.entry m).2 = .done then none
        else some (evalChain bo k pkt filterTableName d.entry m).2) else (m, none) := by
    rw [hchain, flow, exec_hookRule, hname]
    by_cases hserves : i.Serves pkt d
    · rw [if_pos (hk.lookup_iff.2 hserves), if_pos hserves]
      simp only [hentry]
      rcases evalChain bo k pkt filterTableName d.entry m with ⟨m', v⟩
      cases v <;> rfl
    · rw [if_neg fun h => hserves (hk.lookup_iff.1 h), if_neg hserves]
      rfl
  show ChainMachine.evalChain (tableMachine bo k pkt filterTableName) (15 + 1) d.hook.name m = _
  rw [evalChain_succ]
  show ((flow _ _ (k.chainRules filterTableName d.hook.name) m).1,
    (flow _ _ (k.chainRules filterTableName d.hook.name) m).2.getD .done) = _
  rw [hflow]
  split
  · rcases evalChain bo k pkt filterTableName d.entry m with ⟨m', v⟩
    cases v <;> rfl
  · rfl

end Hooked

/-! ### Runs and the base chains -/

section Runs

variable {h : Host} {i : Input} {k : Kernel} {s : State} {es : List Event} {ops : List Op}
  {t c : Str} {d : Direction}

/-- One rule that is asked for in a chain without rules. -/
theorem synced_of_single (wf : k.WF) (hq : Queued k es ops) (hempty : k.chainRules t c = [])
    {r : Rule} {action : RuleAction} {b : Bool}
    (hcalls : callsIn t c es = [.rule r action false b]) :
    synced k es t c = [r.content] := by
  have hmem : .rule r action false b ∈ callsIn t c es := by
    rw [hcalls]
    exact .head _
  obtain ⟨he, hin⟩ := List.mem_filter.1 hmem
  have hb : b = true := (hq.answers r _ _ _ he).trans (Kernel.lacks_of_empty hempty hin)
  have hkeep : inView t c (k.rules.filter fun x => !(deletedBy k
      [Event.rule r action false b]).contains x.handle) = [] := by
    rw [← hempty, Kernel.chainRules_eq]
    exact congrArg (inView t c) (List.filter_eq_self.2 fun x _ => rfl)
  rw [synced_eq_callsIn wf, hcalls, hkeep, hb]
  cases action <;> rfl

/-- The set of the interfaces, once it holds what was asked for. -/
theorem lookup_interfaces {bo : ByteOrder} (hexec : Exec (renderInput bo i) es ())
    {ans : Rule → Bool} (hans : Answers ans es) (hsets : k.HoldsSets es) (key : Str) :
    k.lookupSet filterTableName podInterfacesName key =
      i.podInfo.interfaces.any fun e => ifname e.interfaceName == key := by
  obtain ⟨set, fresh, ⟨ht, hn, hinterval⟩, he, -⟩ := callsIn_hook hexec hans
  have hlookup := (hsets set _ fresh he ht).lookup key
  rw [ht, hn, hinterval, setContains_interfaces] at hlookup
  rw [hlookup, Bool.eq_iff_iff, List.any_eq_true, List.any_eq_true]
  unfold Input.sortedInfo
  simp only [List.mem_insertionSort]

/-- The base chains after the main flush of a first run. -/
theorem hooked_of_commit (wf : k.WF) (hk : k.ManagedEmpty)
    (hs : commitRules h i (State.new k) = .ok () s) (hco : i.SetsCoincide h.byteOrder) :
    Hooked i s.kernel := by
  obtain ⟨es, hexec, ⟨ops, hq⟩, -, -, -, -, hchain⟩ := commitRules_ok wf hs
  have hholds := holdsRequested_of_commit wf hs hco (hk.readyFor hexec)
  refine ⟨fun d => ?_, lookup_interfaces hexec hq.answers (hholds.holdsSets hexec)⟩
  obtain ⟨set, fresh, ⟨-, hn, -⟩, -, hcalls⟩ := callsIn_hook hexec hq.answers
  obtain ⟨b, hb⟩ := hcalls d
  exact ⟨set, hn, by
    rw [hchain _ (by decide), synced_of_single wf hq (hk.chainRules (by decide) _) hb]⟩

/-- The first run takes the rules of the base chains away again, the second leaves them. -/
theorem TwoRuns.hooked {h₁ h₂ : Host} {s₁ s₂ : State} (hr : TwoRuns h₁ h₂ i k s₁ s₂)
    (hco : i.SetsCoincide h₁.byteOrder) : Hooked i s₂.kernel := by
  obtain ⟨es₁, hexec₁, ⟨ops₁, hq₁⟩, -, -, hchain₁⟩ := apply_ok hr.wf hr.first
  obtain ⟨es₂, hexec₂, ⟨ops₂, hq₂⟩, -, -, hchain₂⟩ := apply_ok hr.wf₁ hr.second
  obtain ⟨set₁, -, -, -, hcalls₁⟩ := callsIn_hook hexec₁ hq₁.answers
  obtain ⟨set₂, -, ⟨-, hn, -⟩, -, hcalls₂⟩ := callsIn_hook hexec₂ hq₂.answers
  have hexec : Exec (renderInput h₁.byteOrder i) es₂ () := by
    rw [← hr.byteOrder]
    exact hexec₂
  refine ⟨fun d => ⟨set₂, hn, ?_⟩,
    lookup_interfaces hexec₂ hq₂.answers ((hr.holdsRequested hco).2.holdsSets hexec)⟩
  obtain ⟨b₁, hb₁⟩ := hcalls₁ d
  obtain ⟨b₂, hb₂⟩ := hcalls₂ d
  have hlookups : (hookRule set₁ d).content.lookups ≠ [] := by
    rw [ne_eq, Rule.lookups_content]
    cases d <;> exact List.cons_ne_nil _ _
  -- the first run loses its hook rule, which looks up a set that is new in it
  have hfirst : s₁.kernel.chainRules filterTableName d.hook.name = [] := by
    rw [List.eq_nil_iff_forall_not_mem]
    intro x hx
    have hnone := lookups_of_first_run hr.wf hr.empty hr.first hr.noCollision hx
    rw [hchain₁ _ (by decide), synced_of_single hr.wf hq₁ (hr.empty.chainRules (by decide) _) hb₁]
      at hx
    rw [List.mem_singleton.1 (List.mem_of_mem_filter hx)] at hnone
    exact hlookups hnone
  -- the second run finds the set and keeps the rule
  have hmem : (hookRule set₂ d).content ∈ s₂.kernel.chainRules filterTableName d.hook.name := by
    rw [hr.mem_chainRules hco hexec, listedIn, hb₂]
    exact .head _
  rw [hchain₂ _ (by decide), synced_of_single hr.wf₁ hq₂ hfirst hb₂] at hmem ⊢
  exact List.filter_eq_self.2 fun x hx => by
    rw [List.mem_singleton.1 hx]
    exact (List.mem_filter.1 hmem).2

end Runs

end MultiNetPolicy
