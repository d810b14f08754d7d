import MultiNetPolicy.Equiv.Served
import MultiNetPolicy.Equiv.SetNames
import MultiNetPolicy.Equiv.Survival

/-!
# Rulesets that enforce policies

A ruleset enforces the policies of a run when its chains hold the rules, and its sets the elements,
that the run asks for (`Enforced`).  What becomes of a packet can then be told from the policies.

* `Enforced.views_eq_sets`: how a packet fares with the rules is told by the elements that the
  renderer makes of ports and peers.
* `Enforced.views_eq`: for plain policies, this is how it fares with the policies.
* `Enforced.commonAccepts_eq_sets`, `Enforced.commonAccepts_eq`: the common chains.
-/

namespace MultiNetPolicy

open ByteString ChainMachine Render

/-! ### Common chains -/

section Common

variable {bo : ByteOrder} {k : Kernel} {pkt : Packet} {es : List Event} {u : Unit}

/-- One of the rules that are asked for in a chain matches. -/
def hits (bo : ByteOrder) (k : Kernel) (pkt : Packet) (c : Str) (es : List Event) : Bool :=
  (listedIn c es).any (Rule.isHit bo k pkt)

/-- A packet is matched by one of two lists. -/
theorem hits_append (c : Str) (es₁ es₂ : List Event) :
    hits bo k pkt c (es₁ ++ es₂) = (hits bo k pkt c es₁ || hits bo k pkt c es₂) := by
  rw [hits, listedIn_append, List.any_append]
  rfl

theorem commonChain_inj {d d' : Direction} (h : d.commonChain.name = d'.commonChain.name) :
    d = d' := by
  revert h
  revert d d'
  decide

/-- Calls for one common chain match nothing in the other. -/
theorem hits_of_calls {P : Rule → Prop} {d d' : Direction} {Q : Prop}
    (h : ∀ e ∈ es, e.Calls fun r => r.InFilter d'.commonChain.name ∧ P r)
    (hhits : ((rulesOf es).map Rule.content).any (Rule.isHit bo k pkt) = true ↔ Q) :
    hits bo k pkt d.commonChain.name es = true ↔ d = d' ∧ Q := by
  by_cases hd : d = d'
  · subst hd
    rw [hits, listedIn_eq (fun e he => (h e he).mono fun r hr => hr.1) fun r hr => hr, hhits]
    exact (and_iff_right rfl).symm
  · rw [hits, listedIn_eq_nil h fun r hr => ⟨_, hr.1, fun hc => hd (commonChain_inj hc).symm⟩]
    exact iff_of_false Bool.false_ne_true fun hc => hd hc.1

/-- A rule that ends in a verdict matches when its tests do. -/
theorem isHit_content {r : Rule} (g : List Expr) {kind : VerdictKind} {target : Str}
    (hexprs : r.content.exprs = (g ++ [.counter]) ++ [.verdict kind target])
    (hg : g.all Expr.isGuard = true) :
    r.content.isHit bo k pkt = holds bo k pkt filterTableName g := by
  have hguard : (g ++ [Expr.counter]).all Expr.isGuard = true := by
    rw [List.all_append, hg]
    rfl
  rw [Rule.isHit, Rule.guards_eq hguard rfl hexprs, holds_append_counter]

variable {d d' : Direction}

/-- What the rule for ICMP accepts. -/
theorem hits_allowICMP (icmpv6 : Bool) (h : Exec (allowICMP d'.commonChain icmpv6) es u) :
    hits bo k pkt d.commonChain.name es = true ↔
      d = d' ∧ pkt.l4proto = if icmpv6 then ipprotoICMPv6 else ipprotoICMP := by
  refine hits_of_calls (calls_of_emits h (emits_allowICMP rfl)) ?_
  unfold allowICMP at h
  simp only [exec_bind, exec_updateRule, exec_pure] at h
  obtain ⟨isNew, _, _, rfl, ⟨-, rfl⟩, rfl⟩ := h
  show (List.any [_] _) = true ↔ _
  rw [List.any_cons, List.any_nil, Bool.or_false, isHit_content (protocolIs .l4proto _) rfl rfl,
    holds, guardRegs_protocolIs rfl]
  split <;> simp_all

/-- What the rules for neighbour discovery accept. -/
theorem hits_allowNeighborDiscovery (h : Exec (allowNeighborDiscovery d'.commonChain) es u)
    (hsets : k.HoldsSets es) :
    hits bo k pkt d.commonChain.name es = true ↔ d = d' ∧ pkt.IsNeighborDiscovery := by
  refine hits_of_calls (calls_of_emits h (emits_allowNeighborDiscovery rfl)) ?_
  unfold allowNeighborDiscovery at h
  simp only [exec_bind, exec_wrapErr, exec_updateSet, exec_updateRule, exec_pure] at h
  obtain ⟨_, _, _, ⟨id, fresh, -, rfl, rfl⟩, ⟨isNew, _, _, rfl, ⟨-, rfl⟩, rfl⟩, rfl⟩ := h
  have hlookup : ∀ key, k.lookupSet filterTableName ndpSet.name key =
      setContains false ndpElements key := (hsets _ _ _ (List.mem_cons_self ..) rfl).lookup
  show (List.any [_] _) = true ↔ _
  rw [List.any_cons, List.any_nil, Bool.or_false, isHit_content (protocolIs .nfproto nfprotoIPv6 ++
    (protocolIs .l4proto ipprotoICMPv6 ++ [.payload 1 .transportHeader 0 1,
      .lookup 1 ndpSet.name 0])) rfl rfl, holds, guardRegs_append, guardRegs_protocolIs rfl]
  -- the rule tests the family, then the protocol, then the type
  by_cases h6 : pkt.nfproto = nfprotoIPv6
  · rw [if_pos h6, Option.bind_some, guardRegs_append, guardRegs_protocolIs rfl]
    by_cases hicmp : pkt.l4proto = ipprotoICMPv6
    · rw [if_pos hicmp, Option.bind_some, isSome_guardRegs_lookup, Packet.IsNeighborDiscovery,
        and_iff_right h6, and_iff_right hicmp]
      show (slice pkt.transportHeader 0 1).any (k.lookupSet filterTableName ndpSet.name) = true ↔ _
      rw [Option.any_eq_true]
      simp only [hlookup]
      constructor
      · rintro ⟨bytes, hbytes, hin⟩
        obtain ⟨e, he, hkey⟩ := List.any_eq_true.1 hin
        obtain rfl := beq_iff_eq.1 hkey
        have hkeys : ∀ e ∈ ndpElements, ∃ type ∈ [133, 134, 135, 136], e.key = [type] := by decide
        obtain ⟨type, htype, hkey⟩ := hkeys e he
        exact ⟨type, htype, hbytes.trans (congrArg some hkey)⟩
      · rintro ⟨type, htype, hbytes⟩
        refine ⟨[type], hbytes, ?_⟩
        have hin : ∀ type ∈ [133, 134, 135, 136], setContains false ndpElements [type] = true := by
          decide +kernel
        exact hin type htype
    · rw [if_neg hicmp]
      exact iff_of_false Bool.false_ne_true fun hc => hicmp hc.2.1
  · rw [if_neg h6]
    exact iff_of_false Bool.false_ne_true fun hc => h6 hc.1

/-- The tracked connections. -/
theorem hits_allowConntracked (h : Exec (allowConntracked bo d'.commonChain) es u) :
    hits bo k pkt d.commonChain.name es = true ↔ d = d' ∧ pkt.ctState &&& ctStateTracked ≠ 0 := by
  refine hits_of_calls (calls_of_emits h (emits_allowConntracked rfl)) ?_
  unfold allowConntracked at h
  simp only [exec_bind, exec_updateRule, exec_pure] at h
  obtain ⟨isNew, _, _, rfl, ⟨-, rfl⟩, rfl⟩ := h
  show (List.any [_] _) = true ↔ _
  rw [List.any_cons, List.any_nil, Bool.or_false, isHit_content [.ct 1 false .state,
    .bitwise 1 1 4 (bo.putUint32 ctStateTracked) (bo.putUint32 zeroRuleMark),
    .cmp .neq 1 [0, 0, 0, 0]] rfl rfl]
  -- the comparison is with four zero bytes, in either byte order
  have hcmp : ∀ v, cmpMatches .neq (bo.putUint32 v) [0, 0, 0, 0] = decide (v ≠ 0) := by
    intro v
    have hzero : [0, 0, 0, 0] = bo.putUint32 0 := by cases bo <;> decide
    rw [cmpMatches, hzero,
      List.take_of_length_le (by rw [bo.putUint32_length, bo.putUint32_length]),
      Bool.eq_iff_iff, bne_iff_ne, decide_eq_true_eq, not_iff_not]
    exact ⟨bo.putUint32_injective, congrArg _⟩
  have htake : (bo.putUint32 pkt.ctState).take 4 = bo.putUint32 pkt.ctState :=
    List.take_of_length_le (bo.putUint32_length _).le
  simp only [holds, guardRegs, evalExpr, ExprResult.load, ExprResult.guard, Function.update_self,
    Option.map_some, htake, andXor_putUint32, xor_zeroRuleMark, Option.any_some, hcmp,
    decide_eq_true_eq]
  by_cases h : pkt.ctState &&& ctStateTracked ≠ 0
  · rw [if_pos h]
    exact iff_of_true rfl h
  · rw [if_neg h]
    exact iff_of_false Bool.false_ne_true h

/-- The calls for one family of the allowed prefixes. -/
theorem exec_applyCommonPrefixFamily {chain : Chain} {set : NftSet} {els : List SetElement}
    {proto : UInt8} {offset len : Nat}
    (h : Exec (applyCommonPrefixFamily chain set els proto offset len) es u) :
    (els = [] ∧ es = []) ∨ ∃ id fresh isNew, es = [.set (set.short id) els fresh,
      .rule (newRule chain (str "common rule:" ++ (set.short id).name)
        (addressIn proto offset len (set.short id) ++ [.counter, .verdict .accept []]))
          .addRule false
        isNew] := by
  unfold applyCommonPrefixFamily at h
  simp only [exec_when, exec_bind, exec_wrapErr, exec_updateSet, exec_updateRule, exec_pure,
    gt_iff_lt, List.length_pos_iff, not_not] at h
  rcases h with ⟨-, _, _, _, ⟨id, fresh, -, rfl, rfl⟩, ⟨isNew, _, _, rfl, ⟨-, rfl⟩, rfl⟩, rfl⟩ |
    ⟨hels, rfl⟩
  · exact .inr ⟨id, fresh, isNew, rfl⟩
  · exact .inl ⟨hels, rfl⟩

/-- The rule of one version of some allowed prefixes. -/
theorem any_isHit_applyCommonPrefixFamily {chain : Chain} {name : Str} {keyType : SetDatatype}
    {els : List SetElement} (isV6 : Bool) {offset : Nat} (hoffset : offset = d.peerOffset isV6)
    (h : Exec (applyCommonPrefixFamily chain (commonPrefixSet name keyType) els
      (addressFamily isV6).nfProtocol offset (addressFamily isV6).payloadLen) es u)
    (hsets : k.HoldsSets es) :
    ((rulesOf es).map Rule.content).any (Rule.isHit bo k pkt) = true ↔
      ∃ a, pkt.peer d = some a ∧ a.is4 = !isV6 ∧ setContains true els a.asSlice = true := by
  subst hoffset
  rcases exec_applyCommonPrefixFamily h with ⟨rfl, rfl⟩ | ⟨id, fresh, isNew, rfl⟩
  · refine iff_of_false Bool.false_ne_true ?_
    rintro ⟨a, -, -, hin⟩
    cases hin
  · have hlookup : ∀ key, k.lookupSet filterTableName ((commonPrefixSet name keyType).short id).name
        key = setContains true els key := (hsets _ _ _ (List.mem_cons_self ..) rfl).lookup
    show (List.any [_] _) = true ↔ _
    rw [List.any_cons, List.any_nil, Bool.or_false, isHit_content (addressIn
        (addressFamily isV6).nfProtocol (d.peerOffset isV6) (addressFamily isV6).payloadLen
        ((commonPrefixSet name keyType).short 0)) rfl rfl, holds_addressIn,
      Packet.exists_peer_iff isV6 fun bytes => setContains true els bytes = true, Bool.and_eq_true,
      decide_eq_true_eq, Option.any_eq_true]
    simp only [← hlookup]
    rfl

/-- The rules of some allowed prefixes. -/
theorem hits_applyCommonPrefixRules {prefixes : List Str} {name : Str}
    (h : Exec (applyCommonPrefixRules d'.commonChain prefixes name) es u) (hsets : k.HoldsSets es) :
    hits bo k pkt d.commonChain.name es = true ↔
      d = d' ∧ ∃ a, pkt.peer d' = some a ∧ inPrefixSet prefixes a = true := by
  refine hits_of_calls (calls_of_emits h (emits_applyCommonPrefixRules rfl)) ?_
  unfold applyCommonPrefixRules at h
  simp only [exec_bind, exec_wrapErr, exec_ofExcept] at h
  obtain ⟨els, _, _, ⟨hels, rfl⟩, ⟨_, es₄, es₆, h₄, h₆, rfl⟩, rfl⟩ := h
  -- sources on the way in, destinations on the way out
  have hoffset : ∀ f : AddressFamily, (if isIngressChain d'.commonChain.name then f.offset
      else f.offset + f.payloadLen) =
        if d' = .ingress then f.offset else f.offset + f.payloadLen := by
    intro f
    cases d' <;> rfl
  rw [List.nil_append] at hsets ⊢
  rw [rulesOf_append, List.map_append, List.any_append, Bool.or_eq_true,
    any_isHit_applyCommonPrefixFamily false (hoffset (addressFamily false)) h₄
      (hsets.mono (List.subset_append_left ..)),
    any_isHit_applyCommonPrefixFamily true (hoffset (addressFamily true)) h₆
      (hsets.mono (List.subset_append_right ..))]
  simp only [inPrefixSet_eq hels]
  constructor
  · rintro (⟨a, ha, h4, hin⟩ | ⟨a, ha, h4, hin⟩)
    · refine ⟨a, ha, ?_⟩
      rw [h4]
      exact hin
    · refine ⟨a, ha, ?_⟩
      rw [h4]
      exact hin
  · rintro ⟨a, ha, hin⟩
    cases h4 : a.is4 with
    | true =>
      rw [h4] at hin
      exact .inl ⟨a, ha, h4, hin⟩
    | false =>
      rw [h4] at hin
      exact .inr ⟨a, ha, h4, hin⟩

/-- A rule that both common chains get. -/
theorem hits_both (f : Chain → Render Unit) {what₁ what₂ : Str} {Q : Prop}
    (h : Exec (do
      Render.wrapErr what₁ (f Direction.ingress.commonChain)
      Render.wrapErr what₂ (f Direction.egress.commonChain)) es u)
    (hf : ∀ (d' : Direction) {es' : List Event} {u : Unit}, Exec (f d'.commonChain) es' u →
      es' ⊆ es → (hits bo k pkt d.commonChain.name es' = true ↔ d = d' ∧ Q)) :
    hits bo k pkt d.commonChain.name es = true ↔ Q := by
  obtain ⟨_, es₁, es₂, h₁, h₂, rfl⟩ := exec_bind.1 h
  rw [hits_append, Bool.or_eq_true, hf .ingress (exec_wrapErr.1 h₁) (List.subset_append_left ..),
    hf .egress (exec_wrapErr.1 h₂) (List.subset_append_right ..)]
  cases d with
  | ingress => simp
  | egress => simp

/-- Allowed prefixes, for one of the chains. -/
theorem hits_prefixes {prefixes : List Str} {what name : Str}
    (h : Exec (when (prefixes.length ≠ 0) (Render.wrapErr what
      (applyCommonPrefixRules d'.commonChain prefixes name))) es u) (hsets : k.HoldsSets es) :
    hits bo k pkt d.commonChain.name es = true ↔
      d = d' ∧ ∃ a, pkt.peer d' = some a ∧ inPrefixSet prefixes a = true := by
  rcases exec_when.1 h with ⟨-, h⟩ | ⟨hnil, rfl⟩
  · exact hits_applyCommonPrefixRules (exec_wrapErr.1 h) hsets
  · rw [not_not, List.length_eq_zero_iff] at hnil
    subst hnil
    refine iff_of_false Bool.false_ne_true ?_
    rintro ⟨-, a, -, hin⟩
    have hnone : inPrefixSet [] a = false := by cases a <;> rfl
    rw [hnone] at hin
    cases hin

/-- **The common chains** accept what the sets of the configuration have. -/
theorem hits_applyCommonChainRules {cfg : CommonRuleConfig}
    (h : Exec (applyCommonChainRules (NftState.base bo) cfg) es u) (hsets : k.HoldsSets es) :
    hits bo k pkt d.commonChain.name es = true ↔ cfg.SetsAccept d pkt := by
  unfold applyCommonChainRules at h
  obtain ⟨_, es₁, _, h₁, hbehind₁, rfl⟩ := exec_bind.1 h
  obtain ⟨_, es₂, _, h₂, hbehind₂, rfl⟩ := exec_bind.1 hbehind₁
  obtain ⟨_, es₃, _, h₃, hbehind₃, rfl⟩ := exec_bind.1 hbehind₂
  obtain ⟨_, es₄, es₅, h₄, h₅, rfl⟩ := exec_bind.1 hbehind₃
  have hsub₃ : es₃ ⊆ es₁ ++ (es₂ ++ (es₃ ++ (es₄ ++ es₅))) := by
    intro e he
    simp [he]
  have hsub₄ : es₄ ⊆ es₁ ++ (es₂ ++ (es₃ ++ (es₄ ++ es₅))) := by
    intro e he
    simp [he]
  -- without the option for ICMPv6 only neighbour discovery is let through
  have hicmpv6 : hits bo k pkt d.commonChain.name es₁ = true ↔
      if cfg.acceptICMPv6 = true then pkt.l4proto = ipprotoICMPv6
      else pkt.IsNeighborDiscovery := by
    unfold applyCommonICMPv6 at h₁
    split at h₁
    · rename_i hc
      rw [if_pos hc]
      exact hits_both (allowICMP · true) h₁ fun d' _ _ h _ => hits_allowICMP true h
    · rename_i hc
      rw [if_neg hc]
      refine hits_both allowNeighborDiscovery h₁ fun d' _ _ h hsub =>
        hits_allowNeighborDiscovery h (hsets.mono ?_)
      exact fun e he => List.mem_append_left _ (hsub he)
  have hicmp : hits bo k pkt d.commonChain.name es₂ = true ↔
      cfg.acceptICMP = true ∧ pkt.l4proto = ipprotoICMP := by
    rcases exec_when.1 h₂ with ⟨hc, h₂⟩ | ⟨hc, rfl⟩
    · rw [and_iff_right hc]
      exact hits_both (allowICMP · false) h₂ fun d' _ _ h _ => hits_allowICMP false h
    · exact iff_of_false Bool.false_ne_true fun hboth => hc hboth.1
  have hsrc : hits bo k pkt d.commonChain.name es₃ = true ↔
      d = .ingress ∧ ∃ a, pkt.peer .ingress = some a ∧ inPrefixSet cfg.allowSrcPrefix a = true :=
    hits_prefixes h₃ (hsets.mono hsub₃)
  have hdst : hits bo k pkt d.commonChain.name es₄ = true ↔
      d = .egress ∧ ∃ a, pkt.peer .egress = some a ∧ inPrefixSet cfg.allowDstPrefix a = true :=
    hits_prefixes h₄ (hsets.mono hsub₄)
  have hct : hits bo k pkt d.commonChain.name es₅ = true ↔ pkt.ctState &&& ctStateTracked ≠ 0 :=
    hits_both (allowConntracked bo) h₅ fun d' _ _ h _ => hits_allowConntracked h
  simp only [hits_append, Bool.or_eq_true, hicmpv6, hicmp, hsrc, hdst, hct,
    CommonRuleConfig.SetsAccept]
  -- source prefixes are for ingress only, destination prefixes for egress only
  have hprefixes : (d = .ingress ∧ (∃ a, pkt.peer .ingress = some a ∧
      inPrefixSet cfg.allowSrcPrefix a = true)) ∨ (d = .egress ∧ (∃ a, pkt.peer .egress = some a ∧
      inPrefixSet cfg.allowDstPrefix a = true)) ↔
      ∃ a, pkt.peer d = some a ∧ inPrefixSet (cfg.prefixesIn d) a = true := by
    cases d <;> simp [CommonRuleConfig.prefixesIn]
  rw [← hprefixes]
  constructor
  · rintro (h | h | h | h | h)
    · exact .inr (.inr (.inl h))
    · exact .inr (.inl h)
    · exact .inr (.inr (.inr (.inl h)))
    · exact .inr (.inr (.inr (.inr h)))
    · exact .inl h
  · rintro (h | h | h | h | h)
    · exact .inr (.inr (.inr (.inr h)))
    · exact .inr (.inl h)
    · exact .inl h
    · exact .inr (.inr (.inl h))
    · exact .inr (.inr (.inr (.inl h)))

/-- The prefixes that the configuration allows have been read. -/
theorem exists_prefixElements {cfg : CommonRuleConfig}
    (h : Exec (applyCommonChainRules (NftState.base bo) cfg) es u) (d : Direction) :
    ∃ els, getPrefixesAsSetInterval (cfg.prefixesIn d) = .ok els := by
  have hread : ∀ (d' : Direction) {prefixes : List Str} {what name : Str} {es : List Event}
      {u : Unit}, Exec (when (prefixes.length ≠ 0) (Render.wrapErr what
        (applyCommonPrefixRules d'.commonChain prefixes name))) es u →
      ∃ els, getPrefixesAsSetInterval prefixes = .ok els := by
    intro d' prefixes what name es u h
    rcases exec_when.1 h with ⟨-, h⟩ | ⟨hnil, -⟩
    · simp only [applyCommonPrefixRules, exec_wrapErr, exec_bind, exec_ofExcept] at h
      obtain ⟨els, _, _, ⟨hels, -⟩, -⟩ := h
      exact ⟨els, hels⟩
    · rw [not_not, List.length_eq_zero_iff] at hnil
      exact ⟨([], []), by rw [hnil]; rfl⟩
  unfold applyCommonChainRules at h
  obtain ⟨_, _, _, -, h, -⟩ := exec_bind.1 h
  obtain ⟨_, _, _, -, h, -⟩ := exec_bind.1 h
  obtain ⟨_, _, _, hsrc, h, -⟩ := exec_bind.1 h
  obtain ⟨_, _, _, hdst, -, -⟩ := exec_bind.1 h
  cases d with
  | ingress => exact hread .ingress hsrc
  | egress => exact hread .egress hdst

/-- Where the intervals do not break, the sets have the prefixes. -/
theorem CommonRuleConfig.setsAccept_iff {cfg : CommonRuleConfig}
    {els : List SetElement × List SetElement}
    (h : getPrefixesAsSetInterval (cfg.prefixesIn d) = .ok els)
    (hunbroken : UnbrokenPrefixes (cfg.prefixesIn d)) :
    cfg.SetsAccept d pkt ↔ cfg.Accepts d pkt := by
  have hprefixes : (∃ a, pkt.peer d = some a ∧ inPrefixSet (cfg.prefixesIn d) a = true) ↔
      ∃ a, pkt.peer d = some a ∧ inPrefixes (cfg.prefixesIn d) a = true := by
    refine exists_congr fun a => and_congr_right fun ha => ?_
    rw [inPrefixSet_eq h, setContains_unbroken h hunbroken (Packet.zone_peer ha)]
  rw [SetsAccept, Accepts, hprefixes]

end Common

/-! ### The calls of one rule -/

section Calls

variable {bo : ByteOrder} {deps : PolicyDeps} {podInfo : PodInfo} {networks : List Str}
  {es : List Event} {u : Unit}

/-- The block of a rule: the ports and the peers between two rules of the policy chain. -/
theorem exec_applyPolicyRule_parts {chainName policyName resetName direction : Str} {chain : Chain}
    {index : Nat} {rule : PolicyRule}
    (h : Exec (applyPolicyRule bo deps chainName chain podInfo networks policyName
      resetName direction
      index rule) es u) :
    ∃ es₁ es₂ reset check,
      Exec (applyPolicyPortsRules bo chainName chain policyName rule.ports index) es₁ () ∧
      Exec (applyPolicyPeersRules bo deps chainName chain policyName rule.peers podInfo networks
        index) es₂ () ∧
      es = [.rule (markResetRule bo chainName chain resetName index) .addRule false reset] ++
        (es₁ ++ (es₂ ++ [.rule (markCheckRule bo chainName chain policyName index) .addRule false
          check])) := by
  unfold applyPolicyRule applyMarkReset applyMarkCheck at h
  simp only [exec_bind, exec_wrapErr, exec_updateRule, exec_pure] at h
  obtain ⟨_, _, _, ⟨reset, _, _, rfl, ⟨-, rfl⟩, rfl⟩, ⟨_, es₁, _, h₁, ⟨_, es₂, _, h₂,
    ⟨check, _, _, rfl, ⟨-, rfl⟩, rfl⟩, rfl⟩, rfl⟩, rfl⟩ := h
  exact ⟨es₁, es₂, reset, check, h₁, h₂, rfl⟩

/-- The indices of a list, around one of them. -/
theorem exists_zipIdx_split {α : Type} {l : List α} {index : Nat} (hi : index < l.length) :
    ∃ l₁ l₂, l.zipIdx = l₁ ++ (l[index], index) :: l₂ ∧ ∀ x ∈ l₁ ++ l₂, x.2 ≠ index := by
  have hmem : (l[index], index) ∈ l.zipIdx := by
    rw [List.mem_zipIdx_iff_getElem?, List.getElem?_eq_getElem hi]
  obtain ⟨l₁, l₂, hl⟩ := List.append_of_mem hmem
  refine ⟨l₁, l₂, hl, ?_⟩
  have hnodup : (l.zipIdx.map Prod.snd).Nodup := by
    rw [List.zipIdx_map_snd]
    exact List.nodup_range'
  rw [hl, List.map_append, List.map_cons, List.nodup_middle, List.nodup_cons,
    ← List.map_append] at hnodup
  intro x hx hindex
  exact hnodup.1 (List.mem_map.2 ⟨x, hx, hindex⟩)

variable {d : Direction} {p : MultiNetworkPolicy}

/-- The rules of a block are in the policy chain and in the chains of its index. -/
theorem calls_applyPolicyRule {direction resetName : Str} {index : Nat} {rule : PolicyRule}
    (h : Exec (applyPolicyRule bo deps (policyChainFullName d.entry p) (policyChainOf d.entry p)
      podInfo networks (policyNamespacedName p) resetName direction index rule) es u) :
    ∀ e ∈ es, e.Calls fun r => ∃ role ∈ [ChainRole.policy, .ports index, .peers index],
      r.InFilter (chainNameOf d p role) := by
  obtain ⟨b₀, b₁, b₂, b₃, rest₁, rest₂, rfl, h₁, h₂⟩ := exec_applyPolicyRule rfl h
  have hpolicy : ∀ {r : Rule} {b : Bool}, r.InFilter (chainNameOf d p .policy) →
      Event.Calls (fun r => ∃ role ∈ [ChainRole.policy, .ports index, .peers index],
        r.InFilter (chainNameOf d p role)) (.rule r .addRule false b) :=
    fun hr => ⟨.policy, by simp, hr⟩
  intro e he
  simp only [List.mem_cons, List.mem_append, List.not_mem_nil, or_false] at he
  rcases he with rfl | rfl | rfl | he | rfl | rfl | he | rfl
  · exact hpolicy ⟨rfl, rfl⟩
  · trivial
  · exact hpolicy ⟨rfl, rfl⟩
  · refine (h₁ e he).calls.mono fun r hr => ⟨.ports index, by simp, ?_⟩
    rw [← portsChainOf_name]
    exact hr.1
  · trivial
  · exact hpolicy ⟨rfl, rfl⟩
  · refine (h₂ e he).calls.mono fun r hr => ⟨.peers index, by simp, ?_⟩
    rw [← peersChainOf_name]
    exact hr.1
  · exact hpolicy ⟨rfl, rfl⟩

/-- The calls for a chain of one rule are calls of its block. -/
theorem exists_block {index : Nat} (hi : index < (p.rulesIn d).length)
    (h : Exec (applyPolicyRules bo deps (policyChainFullName d.entry p) (policyChainOf d.entry p)
      podInfo networks p) es u) :
    ∃ e direction, Exec (applyPolicyRule bo deps (policyChainFullName d.entry p)
        (policyChainOf d.entry p) podInfo networks (policyNamespacedName p)
        (d.resetName p) direction
        index (p.rulesIn d)[index]) e () ∧ e ⊆ es ∧
      ∀ c, (∀ j < (p.rulesIn d).length, j ≠ index → ∀ role ∈ [ChainRole.policy, .ports j, .peers j],
        chainNameOf d p role ≠ c) → listedIn c es = listedIn c e := by
  obtain ⟨ess, rfl, hess⟩ := exec_applyPolicyRules h
  obtain ⟨l₁, l₂, hl, hother⟩ := exists_zipIdx_split hi
  rw [hl] at hess
  obtain ⟨ess₁, e, ess₂, rfl, hess₁, ⟨direction, he⟩, hess₂⟩ := forall₂_middle hess
  refine ⟨e, direction, he, fun x hx => List.mem_flatten.2 ⟨e, by simp, hx⟩, fun c hc => ?_⟩
  -- the blocks before and behind it ask for nothing in the chain
  have hnone : ∀ {l : List (PolicyRule × Nat)} {ess : List (List Event)}, l ⊆ l₁ ++ l₂ →
      List.Forall₂ (fun x e => ∃ direction, Exec (applyPolicyRule bo deps
        (policyChainFullName d.entry p) (policyChainOf d.entry p) podInfo networks
        (policyNamespacedName p) (d.resetName p) direction x.2 x.1) e ()) l ess →
      listedIn c ess.flatten = [] := by
    intro l ess hsub hess
    have hcalls : ∀ x ∈ ess.flatten, x.Calls fun r => ∃ j < (p.rulesIn d).length, j ≠ index ∧
        ∃ role ∈ [ChainRole.policy, .ports j, .peers j], r.InFilter (chainNameOf d p role) := by
      intro x hx
      obtain ⟨e, hmem, hx⟩ := List.mem_flatten.1 hx
      obtain ⟨y, hy, direction, he⟩ := exists_mem_of_forall₂ hess hmem
      have hin : y ∈ (p.rulesIn d).zipIdx := by
        rw [hl]
        have := hsub hy
        simp only [List.mem_append, List.mem_cons] at this ⊢
        exact this.elim .inl fun hmem => .inr (.inr hmem)
      refine (calls_applyPolicyRule he x hx).mono ?_
      rintro r ⟨role, hrole, hr⟩
      exact ⟨y.2, (List.mem_zipIdx' hin).1, hother y (hsub hy), role, hrole, hr⟩
    refine listedIn_eq_nil hcalls ?_
    rintro r ⟨j, hj, hne, role, hrole, hr⟩
    exact ⟨_, hr, hc j hj hne role hrole⟩
  rw [List.flatten_append, List.flatten_cons, listedIn_append, listedIn_append,
    hnone (List.subset_append_left ..) hess₁, hnone (List.subset_append_right ..) hess₂,
    List.nil_append, List.append_nil]

/-- The rules of a ports chain are asked for by the ports. -/
theorem calls_applyPolicyPortsRules {policyName : Str} {ports : List MultiNetworkPolicyPort}
    {index : Nat}
    (h : Exec (applyPolicyPortsRules bo (policyChainFullName d.entry p) (policyChainOf d.entry p)
      policyName ports index) es u) :
    ∀ e ∈ es, e.Calls fun r => ∃ role ∈ [ChainRole.policy, .ports index],
      r.InFilter (chainNameOf d p role) := by
  obtain ⟨isNew, rest, rfl, hrest⟩ := exec_applyPolicyPortsRules rfl h
  intro e he
  simp only [List.mem_cons] at he
  rcases he with rfl | rfl | he
  · trivial
  · exact ⟨.policy, by simp, rfl, rfl⟩
  · refine (hrest e he).calls.mono fun r hr => ⟨.ports index, by simp, ?_⟩
    rw [← portsChainOf_name]
    exact hr.1

theorem calls_applyPolicyPeersRules {policyName : Str} {peers : List MultiNetworkPolicyPeer}
    {index : Nat}
    (h : Exec (applyPolicyPeersRules bo deps (policyChainFullName d.entry p)
      (policyChainOf d.entry p)
      policyName peers podInfo networks index) es u) :
    ∀ e ∈ es, e.Calls fun r => ∃ role ∈ [ChainRole.policy, .peers index],
      r.InFilter (chainNameOf d p role) := by
  obtain ⟨isNew, rest, rfl, hrest⟩ := exec_applyPolicyPeersRules rfl h
  intro e he
  simp only [List.mem_cons] at he
  rcases he with rfl | rfl | he
  · trivial
  · exact ⟨.policy, by simp, rfl, rfl⟩
  · refine (hrest e he).calls.mono fun r hr => ⟨.peers index, by simp, ?_⟩
    rw [← peersChainOf_name]
    exact hr.1

end Calls

section Run

variable {bo : ByteOrder} {i : Input} {es : List Event} {ans : Rule → Bool} {d : Direction}
  {p : InternalPolicy} {index : Nat}

/-- Roles of one rule. -/
theorem Input.role_ne {i : Input} (hnd : i.chainNames.Nodup) (hp : p ∈ i.policiesIn d)
    {role role' : ChainRole} (hr : role ∈ rolesBelow (p.policy.rulesIn d).length)
    (hr' : role' ∈ rolesBelow (p.policy.rulesIn d).length) (hne : role ≠ role') :
    chainNameOf d p.policy role ≠ chainNameOf d p.policy role' :=
  fun heq => hne (Input.role_eq_of_nodup hnd hp hr hr' heq)

/-- The calls for one chain of one rule. -/
theorem exists_ruleBlock (h : Exec (renderInput bo i) es ()) (hans : Answers ans es)
    (hnd : i.chainNames.Nodup) (hp : p ∈ i.policiesIn d) (hi : index < (p.policy.rulesIn d).length)
    {role : ChainRole} (hrole : role ∈ [ChainRole.ports index, .peers index]) :
    ∃ e direction, Exec (applyPolicyRule bo i.deps (policyChainFullName d.entry p.policy)
        (policyChainOf d.entry p.policy) i.sortedInfo p.policyNetworks
        (policyNamespacedName p.policy) (d.resetName p.policy) direction index
        (p.policy.rulesIn d)[index]) e () ∧ e ⊆ es ∧
      listedIn (chainNameOf d p.policy role) es = listedIn (chainNameOf d p.policy role) e := by
  have hbelow : role ∈ rolesBelow (p.policy.rulesIn d).length := by
    simp only [List.mem_cons, List.not_mem_nil, or_false] at hrole
    rcases hrole with rfl | rfl <;> exact mem_rolesBelow.2 hi
  obtain ⟨e, esR, hcalls, hsub, heq⟩ :=
    exists_callsIn_policy h hans hnd hp (List.mem_map_of_mem hbelow)
  obtain ⟨e', direction, he', hsub', hlisted⟩ := exists_block hi hcalls.exec
  refine ⟨e', direction, he', fun x hx => hsub ?_, ?_⟩
  · rw [hcalls.calls]
    simp [hsub' hx]
  · rw [listedIn, heq]
    refine hlisted _ fun j hj hne role' hrole' => ?_
    simp only [List.mem_cons, List.not_mem_nil, or_false] at hrole hrole'
    have hbelow' : role' ∈ rolesBelow (p.policy.rulesIn d).length := by
      rcases hrole' with rfl | rfl | rfl
      · exact mem_rolesBelow.2 trivial
      · exact mem_rolesBelow.2 hj
      · exact mem_rolesBelow.2 hj
    -- the chains of the other blocks have other names
    refine Input.role_ne hnd hp hbelow' hbelow ?_
    rcases hrole with rfl | rfl <;> rcases hrole' with rfl | rfl | rfl <;> simp [hne]

/-- One rule in another chain of the policy. -/
theorem listedIn_rule_eq_nil {c c' : Str} {r : Rule} {b : Bool} (hr : r.InFilter c')
    (hne : c' ≠ c) :
    listedIn c [.rule r .addRule false b] = [] := by
  refine listedIn_eq_nil (P := fun r => r.InFilter c') ?_ fun x hx => ⟨c', hx, hne⟩
  intro e he
  obtain rfl := List.mem_singleton.1 he
  exact hr

section Parts

variable (h : Exec (renderInput bo i) es ()) (hans : Answers ans es) (hnd : i.chainNames.Nodup)
  (hp : p ∈ i.policiesIn d) (hi : index < (p.policy.rulesIn d).length)
include h hans hnd hp hi

/-- The calls for the ports chain of a rule. -/
theorem exists_portsCalls : ∃ es₁,
    Exec (applyPolicyPortsRules bo (policyChainFullName d.entry p.policy)
      (policyChainOf d.entry p.policy) (policyNamespacedName p.policy)
      (p.policy.rulesIn d)[index].ports index) es₁ () ∧ es₁ ⊆ es ∧
    listedIn (chainNameOf d p.policy (.ports index)) es =
      listedIn (chainNameOf d p.policy (.ports index)) es₁ := by
  have hports : ChainRole.ports index ∈ rolesBelow (p.policy.rulesIn d).length :=
    mem_rolesBelow.2 hi
  have hpolicy : chainNameOf d p.policy .policy ≠ chainNameOf d p.policy (.ports index) :=
    Input.role_ne hnd hp (mem_rolesBelow.2 trivial) hports (by simp)
  have hpeers : chainNameOf d p.policy (.peers index) ≠ chainNameOf d p.policy (.ports index) :=
    Input.role_ne hnd hp (mem_rolesBelow.2 hi) hports (by simp)
  obtain ⟨e, direction, he, hsub, heq⟩ := exists_ruleBlock h hans hnd hp hi (List.mem_cons_self ..)
  obtain ⟨es₁, es₂, reset, check, h₁, h₂, rfl⟩ := exec_applyPolicyRule_parts he
  refine ⟨es₁, h₁, fun x hx => hsub (by simp [hx]), ?_⟩
  -- the second half of the block is about the peers chain
  have hother : listedIn (chainNameOf d p.policy (.ports index)) es₂ = [] := by
    refine listedIn_eq_nil (calls_applyPolicyPeersRules h₂) ?_
    rintro r ⟨role, hrole, hr⟩
    refine ⟨_, hr, ?_⟩
    simp only [List.mem_cons, List.not_mem_nil, or_false] at hrole
    rcases hrole with rfl | rfl
    · exact hpolicy
    · exact hpeers
  rw [heq, listedIn_append, listedIn_append, listedIn_append, hother,
    listedIn_rule_eq_nil ⟨rfl, rfl⟩ hpolicy, listedIn_rule_eq_nil ⟨rfl, rfl⟩ hpolicy,
    List.nil_append, List.append_nil, List.append_nil]

/-- The calls for the peers chain of a rule. -/
theorem exists_peersCalls : ∃ es₂,
    Exec (applyPolicyPeersRules bo i.deps (policyChainFullName d.entry p.policy)
      (policyChainOf d.entry p.policy) (policyNamespacedName p.policy)
      (p.policy.rulesIn d)[index].peers i.sortedInfo p.policyNetworks index) es₂ () ∧ es₂ ⊆ es ∧
    listedIn (chainNameOf d p.policy (.peers index)) es =
      listedIn (chainNameOf d p.policy (.peers index)) es₂ := by
  have hpeers : ChainRole.peers index ∈ rolesBelow (p.policy.rulesIn d).length :=
    mem_rolesBelow.2 hi
  have hpolicy : chainNameOf d p.policy .policy ≠ chainNameOf d p.policy (.peers index) :=
    Input.role_ne hnd hp (mem_rolesBelow.2 trivial) hpeers (by simp)
  have hports : chainNameOf d p.policy (.ports index) ≠ chainNameOf d p.policy (.peers index) :=
    Input.role_ne hnd hp (mem_rolesBelow.2 hi) hpeers (by simp)
  obtain ⟨e, direction, he, hsub, heq⟩ := exists_ruleBlock h hans hnd hp hi
    (List.mem_cons_of_mem _ (List.mem_cons_self ..))
  obtain ⟨es₁, es₂, reset, check, h₁, h₂, rfl⟩ := exec_applyPolicyRule_parts he
  refine ⟨es₂, h₂, fun x hx => hsub (by simp [hx]), ?_⟩
  -- the first half of the block is about the ports chain
  have hother : listedIn (chainNameOf d p.policy (.peers index)) es₁ = [] := by
    refine listedIn_eq_nil (calls_applyPolicyPortsRules h₁) ?_
    rintro r ⟨role, hrole, hr⟩
    refine ⟨_, hr, ?_⟩
    simp only [List.mem_cons, List.not_mem_nil, or_false] at hrole
    rcases hrole with rfl | rfl
    · exact hpolicy
    · exact hports
  rw [heq, listedIn_append, listedIn_append, listedIn_append, hother,
    listedIn_rule_eq_nil ⟨rfl, rfl⟩ hpolicy, listedIn_rule_eq_nil ⟨rfl, rfl⟩ hpolicy,
    List.nil_append, List.nil_append, List.append_nil]

end Parts

/-! ### Enforcing -/

/-- Policies and configuration that mean what they list: no two chains share a name, the ranges of
ports and of prefixes do not break each other, and the addresses of pods are plain. -/
structure Input.Plain (i : Input) : Prop where
  names : i.chainNames.Nodup
  indices : ∀ d, ∀ p ∈ i.policiesIn d, (p.policy.rulesIn d).length ≤ maxRuleIndex
  ports : ∀ d, ∀ p ∈ i.policiesIn d, ∀ rule ∈ p.policy.rulesIn d, PlainPorts rule.ports
  except : ∀ d, ∀ p ∈ i.policiesIn d, ∀ rule ∈ p.policy.rulesIn d, ∀ peer ∈ rule.peers,
    ∀ block, peer.ipBlock = some block → UnbrokenPrefixes block.except
  prefixes : ∀ d, UnbrokenPrefixes (i.cfg.prefixesIn d)
  deps : i.deps.Plain
  podInfo : i.podInfo.Plain

/-- The ruleset holds what an execution of the rendering asks for. -/
structure Enforced (bo : ByteOrder) (i : Input) (k : Kernel) (es : List Event) : Prop where
  exec : Exec (renderInput bo i) es ()
  answers : ∃ ans, Answers ans es
  rendered : ∀ d, Rendered bo i d k
  sets : k.HoldsSets es
  common : ∀ (d : Direction) r, r ∈ k.chainRules filterTableName d.commonChain.name ↔
    r ∈ listedIn d.commonChain.name es
  ports : ∀ d, ∀ p ∈ i.policiesIn d, ∀ index < (p.policy.rulesIn d).length, ∀ r,
    r ∈ k.chainRules filterTableName (chainNameOf d p.policy (.ports index)) ↔
      r ∈ listedIn (chainNameOf d p.policy (.ports index)) es
  peers : ∀ d, ∀ p ∈ i.policiesIn d, ∀ index < (p.policy.rulesIn d).length,
    k.chainRules filterTableName (chainNameOf d p.policy (.peers index)) =
      listedIn (chainNameOf d p.policy (.peers index)) es

theorem Input.Plain.sortedInfo {i : Input} (hi : i.Plain) : i.sortedInfo.Plain := by
  intro intf hintf
  exact hi.podInfo intf ((List.mem_insertionSort _).1 hintf)

/-- An applied policy is for a network of the pod. -/
theorem checkPolicyNetwork_of_mem {i : Input} {d : Direction} {p : InternalPolicy}
    (hp : p ∈ i.policiesIn d) : i.sortedInfo.checkPolicyNetwork p.policyNetworks = true := by
  obtain ⟨j, hj⟩ := jumpRules_ne_nil hp
  obtain ⟨intf, hintf, -⟩ := List.mem_map.1 hj
  exact PodInfo.checkPolicyNetwork_eq_true.2 ⟨intf, hintf⟩

theorem isIngressChain_congr {a b : Str} (h : a.take 13 = b.take 13) :
    isIngressChain a = isIngressChain b := by
  have hlen : ingressChain.length = 13 := by decide
  rw [Bool.eq_iff_iff, isIngressChain, isIngressChain, hasPrefix, hasPrefix,
    List.isPrefixOf_iff_prefix,
    List.isPrefixOf_iff_prefix, List.prefix_iff_eq_take, List.prefix_iff_eq_take, hlen, h]

/-- The name of a peers chain tells the direction. -/
theorem isIngressChain_peersChainName (d : Direction) (p : MultiNetworkPolicy) {index : Nat}
    (hi : index < maxRuleIndex) :
    isIngressChain (peersChainName (policyChainFullName d.entry p) index) =
      decide (d = .ingress) := by
  have hroom := lt_suffixRoom hi
  have hclean := clean_policyChainFullName d p
  have htake : (truncateNftName (policyChainFullName d.entry p) (suffixRoom index)).take 13 =
      (policyChainFullName d.entry p).take 13 :=
    take_truncateNftName hclean (by omega) (by omega)
  have hlong : 13 ≤ (policyChainFullName d.entry p).length := by
    have hentry : 12 ≤ d.entry.length := by cases d <;> decide
    rw [policyChainFullName, List.length_append, List.length_append]
    have hdash : (str "-").length = 1 := by decide
    omega
  have hlen : 13 ≤ (truncateNftName (policyChainFullName d.entry p) (suffixRoom index)).length := by
    have hlen := congrArg List.length htake
    rw [List.length_take, List.length_take] at hlen
    omega
  rw [← isIngressChain_policyChainFullName d p]
  refine isIngressChain_congr ?_
  rw [peersChainName_eq d p hi, List.append_assoc, List.take_append_of_le_length hlen, htake]

end Run

namespace Enforced

variable {bo : ByteOrder} {i : Input} {k : Kernel} {es : List Event} {pkt : Packet} {d : Direction}
  {p : InternalPolicy} {index : Nat} (hk : Enforced bo i k es)
include hk

section Sets

variable (hnames : i.chainNames.Nodup)
  (hindices : ∀ d, ∀ p ∈ i.policiesIn d, (p.policy.rulesIn d).length ≤ maxRuleIndex)
include hnames hindices

/-- The chains of a rule say what its sets have. -/
theorem ruleView_eq_sets (hp : p ∈ i.policiesIn d) (hindex : index < (p.policy.rulesIn d).length) :
    ruleView bo k pkt d p.policy index =
      PolicyRule.setMeaning i pkt d p (p.policy.rulesIn d)[index] index := by
  have hpolicy : ∀ role ∈ rolesBelow (p.policy.rulesIn d).length, role ≠ .policy →
      (policyChainOf d.entry p.policy).name ≠ chainNameOf d p.policy role :=
    fun role hrole hne =>
      Input.role_ne hnames hp (mem_rolesBelow.2 trivial) hrole (Ne.symm hne)
  obtain ⟨ans, hans⟩ := hk.answers
  rw [RuleView.mk.injEq]
  constructor
  · obtain ⟨es₁, h₁, hsub, hlisted⟩ := exists_portsCalls hk.exec hans hnames hp hindex
    refine any_isHit_ports rfl ?_ h₁ (hk.sets.mono hsub) fun r => ?_
    · rw [portsChainOf_name]
      exact hpolicy _ (mem_rolesBelow.2 hindex) (by simp)
    · rw [hk.ports d p hp index hindex r, portsChainOf_name, hlisted]
  · obtain ⟨es₂, h₂, hsub, hlisted⟩ := exists_peersCalls hk.exec hans hnames hp hindex
    have hlt : index < maxRuleIndex := hindex.trans_le (hindices d p hp)
    show firstPeer bo k pkt (k.chainRules filterTableName _) = _
    rw [hk.peers d p hp index hindex, hlisted, ← peersChainOf_name]
    refine firstPeer_peers (isIngressChain_peersChainName d p.policy hlt) rfl ?_ h₂
      (hk.sets.mono hsub)
    rw [peersChainOf_name]
    exact hpolicy _ (mem_rolesBelow.2 hindex) (by simp)

/-- **How a packet fares with the rules is told by the sets.** -/
theorem views_eq_sets : i.views bo k pkt d = i.setMeaning pkt d := by
  refine List.map_congr_left fun p hp => ?_
  have hrules : (List.range (p.policy.rulesIn d).length).map (ruleView bo k pkt d p.policy) =
      (p.policy.rulesIn d).zipIdx.map fun x => x.1.setMeaning i pkt d p x.2 := by
    refine List.ext_getElem (by simp) fun index h₁ h₂ => ?_
    rw [List.getElem_map, List.getElem_map, List.getElem_range, List.getElem_zipIdx, Nat.zero_add]
    rw [List.length_map, List.length_zipIdx] at h₂
    exact hk.ruleView_eq_sets hnames hindices hp h₂
  rw [policyView, InternalPolicy.setMeaning, hrules]

end Sets

section Plain

variable (hi : i.Plain) (hport : ∀ protocol, pkt.destination ≠ some (protocol, 0))
include hi hport

/-- The sets of a plain rule have what the rule lists. -/
theorem setMeaning_rule (hp : p ∈ i.policiesIn d) (hindex : index < (p.policy.rulesIn d).length) :
    PolicyRule.setMeaning i pkt d p (p.policy.rulesIn d)[index] index =
      PolicyRule.meaning i pkt d p.policyNetworks (p.policy.rulesIn d)[index] := by
  have hrule : (p.policy.rulesIn d)[index] ∈ p.policy.rulesIn d := List.getElem_mem hindex
  obtain ⟨ans, hans⟩ := hk.answers
  rw [RuleView.mk.injEq]
  constructor
  · obtain ⟨es₁, h₁, -, -⟩ := exists_portsCalls hk.exec hans hi.names hp hindex
    obtain ⟨g, hg, -⟩ := portsCalls_of_exec rfl h₁
    exact portSetsAdmit_eq hg (hi.ports d p hp _ hrule) hport
  · obtain ⟨es₂, h₂, -, -⟩ := exists_peersCalls hk.exec hans hi.names hp hindex
    obtain ⟨peersChain, es', u, hpeers⟩ := exec_peers h₂
    refine if_congr Iff.rfl rfl ?_
    cases hpeer : pkt.peer d with
    | none => rfl
    | some a =>
      exact findSome?_setAnswer hi.deps hi.sortedInfo (checkPolicyNetwork_of_mem hp)
        (Packet.zone_peer hpeer) hpeers (hi.except d p hp _ hrule)

/-- **How a packet fares with the rules is how it fares with the policies.** -/
theorem views_eq : i.views bo k pkt d = i.meaning pkt d := by
  rw [hk.views_eq_sets hi.names hi.indices]
  refine List.map_congr_left fun p hp => ?_
  have hrules : ((p.policy.rulesIn d).zipIdx.map fun x => x.1.setMeaning i pkt d p x.2) =
      (p.policy.rulesIn d).map (PolicyRule.meaning i pkt d p.policyNetworks) := by
    refine List.ext_getElem (by simp) fun index h₁ h₂ => ?_
    rw [List.getElem_map, List.getElem_map, List.getElem_zipIdx, Nat.zero_add]
    rw [List.length_map] at h₂
    exact hk.setMeaning_rule hi hport hp h₂
  rw [InternalPolicy.setMeaning, InternalPolicy.meaning, hrules]

end Plain

/-- The common chains accept what the sets of the configuration have. -/
theorem commonAccepts_eq_sets : commonAccepts bo k pkt d = decide (i.cfg.SetsAccept d pkt) := by
  obtain ⟨ans, hans⟩ := hk.answers
  obtain ⟨es₁, es₂, es₃, es₄, rfl, h₁, h₂, h₃, h₄⟩ := exec_renderInput hk.exec
  simp only [Answers.append_iff] at hans
  obtain ⟨hans₁, -, hans₃, hans₄⟩ := hans
  have hentry : ∀ d d' : Direction, d'.entry ≠ d.commonChain.name := by decide
  -- the base chains and the policies ask for nothing in the common chains
  have hboot : hits bo k pkt d.commonChain.name es₁ = false := by
    have hnone : callsIn filterTableName d.commonChain.name es₁ = [] := by
      refine callsIn_eq_nil fun e he => ((calls_bootstrap hans₁ h₁).1 e he).inChain_eq_false ?_
      intro r hr
      rw [Bool.eq_false_iff]
      intro hin
      obtain ⟨-, hc⟩ := Rule.inChain_iff.1 hin
      rcases hr with ⟨hhook, -⟩ | ⟨d', rfl⟩
      · have hne : ∀ d : Direction, d.commonChain.name ∉ [str "input", str "output",
          str "prerouting"] := by decide
        rw [hc] at hhook
        exact hne d hhook
      · refine hentry d d' (Eq.trans ?_ hc)
        cases d' <;> rfl
    rw [hits, listedIn, hnone]
    rfl
  have hpolicies : ∀ (d' : Direction) {direction : Str} {es' : List Event},
      Exec (applyPolicies bo i.deps d'.entryChain i.sortedInfo direction (i.policiesIn d')) es' () →
      Answers ans es' → hits bo k pkt d.commonChain.name es' = false := by
    intro d' direction es' h' hans'
    rw [hits, listedIn_eq_nil (calls_applyPolicies h' hans')]
    · rfl
    · rintro r (⟨hr, -⟩ | ⟨q, -, hr⟩)
      · exact ⟨_, hr, hentry d d'⟩
      · obtain ⟨c, hc, hr⟩ := hr.mem_names
        exact ⟨c, hr, ne_base_of_mem hc d.common_mem_base⟩
  have hall : commonAccepts bo k pkt d = hits bo k pkt d.commonChain.name
      (es₁ ++ (es₂ ++ (es₃ ++ es₄))) := by
    rw [Bool.eq_iff_iff, commonAccepts, hits, List.any_eq_true, List.any_eq_true]
    simp only [hk.common]
  rw [hall, hits_append, hits_append, hits_append, hboot, hpolicies .ingress h₃ hans₃,
    hpolicies .egress h₄ hans₄, Bool.false_or, Bool.or_false, Bool.or_false,
    Bool.eq_iff_iff, decide_eq_true_eq]
  refine hits_applyCommonChainRules h₂ (hk.sets.mono ?_)
  intro e he
  simp [he]

/-- **The common chain accepts what is configured.** -/
theorem commonAccepts_eq (hi : i.Plain) :
    commonAccepts bo k pkt d = decide (i.cfg.Accepts d pkt) := by
  obtain ⟨es₁, es₂, es₃, es₄, -, -, h₂, -, -⟩ := exec_renderInput hk.exec
  obtain ⟨els, hels⟩ := exists_prefixElements h₂ d
  rw [hk.commonAccepts_eq_sets]
  exact decide_eq_decide.2 (CommonRuleConfig.setsAccept_iff hels (hi.prefixes d))

/-- **The verdict of an entry chain**, in the words of the policies. -/
theorem entry_verdict (hi : i.Plain) (hport : ∀ protocol, pkt.destination ≠ some (protocol, 0))
    (m : BitVec 32) :
    (evalChain bo k pkt filterTableName d.entry m).2 =
      if i.cfg.Accepts d pkt then .accept else policiesVerdict (i.meaning pkt d) m := by
  rw [(hk.rendered d).verdict, hk.commonAccepts_eq hi, hk.views_eq hi hport]
  simp only [decide_eq_true_eq]

end Enforced

end MultiNetPolicy
