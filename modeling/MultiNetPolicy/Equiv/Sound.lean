import MultiNetPolicy.Equiv.Cleanup
import MultiNetPolicy.Server.Apply

/-!
# What every rendering asks for

`Sound es` gathers what holds of the calls of any rendering function: rules can be compared and are
in the daemon's tables, a lookup refers to a set asked for in the same execution by its name and
the ID it came back with, every set asked for is looked up by a rule, and a set has an ID exactly
when it is new to the kernel.  `sound_renderInput` says so of a whole run.
-/

namespace MultiNetPolicy

open ByteString

/-! ### Rules -/

/-- The sets a rule looks up, by name and ID. -/
def Rule.lookups (r : Rule) : List (Str × Nat) :=
  r.exprs.filterMap fun
    | .lookup _ name id => some (name, id)
    | _ => none

/-- A rule as the rendering functions build it, in the table `t`, with the lookups `ls`. -/
structure Rule.Built (r : Rule) (t : Str) (ls : List (Str × Nat)) : Prop where
  plain : r.Plain
  handle : r.handle = 0
  table : r.table = t
  lookups : r.lookups = ls

/-- An expression that the daemon writes. -/
def Expr.isKnown : Expr → Bool
  | foreign _ _ => false
  | _ => true

/-- The expressions that the daemon uses are equal to themselves. -/
theorem exprEqual_self {x : Expr} (hx : x.isKnown = true) : exprEqual x x = true := by
  unfold exprEqual
  split
  · cases hx
  · exact beq_self_eq_true x

/-- Rules from known expressions, with the sets that they look up. -/
theorem built_newRule {c : Chain} {comment t : Str} {exprs : List Expr} {ls : List (Str × Nat)}
    (ht : c.table = t) (hp : exprs.all Expr.isKnown = true)
    (hl : (exprs.filterMap fun
      | .lookup _ name id => some (name, id)
      | _ => none) = ls) : (newRule c comment exprs).Built t ls :=
  ⟨fun x hx => exprEqual_self (List.all_eq_true.1 hp x hx), rfl, ht, hl⟩

namespace Render

variable {bo : ByteOrder} {chain target : Chain} {chainName policyName comment t : Str}
  (ht : chain.table = t)
include ht

theorem built_protoPortsRule (set : NftSet) (proto : UInt8) :
    (protoPortsRule bo chainName chain policyName set proto).Built t [(set.name, set.id)] :=
  built_newRule ht rfl rfl

theorem built_policyJumpRule : (policyJumpRule chainName chain policyName target).Built t [] :=
  built_newRule ht rfl rfl

theorem built_acceptAllRule (what : Str) (mark : BitVec 32) :
    (acceptAllRule bo chainName chain policyName what mark).Built t [] :=
  built_newRule ht rfl rfl

theorem built_exceptRule (f : AddressFamily) (cidr : Str) (set : NftSet) :
    (exceptRule f chainName chain policyName cidr set).Built t [(set.name, set.id)] :=
  built_newRule ht rfl rfl

theorem built_peerRule (f : AddressFamily) (set : NftSet) :
    (peerRule bo f chainName chain comment set).Built t [(set.name, set.id)] :=
  built_newRule ht rfl rfl

theorem built_podInterfaceRule (policy : MultiNetworkPolicy) (i : InterfaceInfo) :
    (podInterfaceRule chain target policy i).Built t [] :=
  built_newRule ht rfl rfl

theorem built_generalMarkCheckRule (policy : MultiNetworkPolicy) :
    (generalMarkCheckRule bo chain policy).Built t [] :=
  built_newRule ht rfl rfl

theorem built_dropRemainingRule : (dropRemainingRule chain).Built t [] :=
  built_newRule ht rfl rfl

theorem built_markResetRule (index : Nat) :
    (markResetRule bo chainName chain policyName index).Built t [] :=
  built_newRule ht rfl rfl

theorem built_markCheckRule (index : Nat) :
    (markCheckRule bo chainName chain policyName index).Built t [] :=
  built_newRule ht rfl rfl

end Render

/-! ### Soundness -/

/-- What holds of the calls of any rendering function. -/
structure Sound (es : List Event) : Prop where
  rule : ∀ r ∈ rulesOf es, r.Plain ∧ r.handle = 0 ∧ isManaged r.table = true
  fresh : ∀ s els fresh, .set s els fresh ∈ es → (s.id = 0 ↔ fresh = false)
  set : ∀ s ∈ setsOf es, isManaged s.table = true
  chain : ∀ c ∈ chainsOf es, isManaged c.table = true
  used : ∀ s ∈ setsOf es, ∃ r ∈ rulesOf es, r.table = s.table ∧ (s.name, s.id) ∈ r.lookups
  resolved : ∀ r ∈ rulesOf es, ∀ x ∈ r.lookups, ∃ s ∈ setsOf es, s.table = r.table ∧
    x = (s.name, s.id)

namespace Sound

theorem nil : Sound [] := by
  constructor <;> simp [rulesOf, setsOf, chainsOf]

/-- Calls one after the other. -/
theorem append {es₁ es₂ : List Event} (h₁ : Sound es₁) (h₂ : Sound es₂) : Sound (es₁ ++ es₂) where
  rule := by
    intro r hr
    rw [rulesOf_append, List.mem_append] at hr
    rcases hr with hr | hr
    · exact h₁.rule r hr
    · exact h₂.rule r hr
  fresh := by
    intro s els fresh h
    rcases List.mem_append.1 h with h | h
    · exact h₁.fresh s els fresh h
    · exact h₂.fresh s els fresh h
  set := by
    intro s hs
    rw [setsOf_append, List.mem_append] at hs
    rcases hs with hs | hs
    · exact h₁.set s hs
    · exact h₂.set s hs
  chain := by
    intro c hc
    rw [chainsOf_append, List.mem_append] at hc
    rcases hc with hc | hc
    · exact h₁.chain c hc
    · exact h₂.chain c hc
  used := by
    intro s hs
    simp only [rulesOf_append, List.mem_append]
    rw [setsOf_append, List.mem_append] at hs
    rcases hs with hs | hs
    · obtain ⟨r, hr, h⟩ := h₁.used s hs
      exact ⟨r, .inl hr, h⟩
    · obtain ⟨r, hr, h⟩ := h₂.used s hs
      exact ⟨r, .inr hr, h⟩
  resolved := by
    intro r hr x hx
    simp only [setsOf_append, List.mem_append]
    rw [rulesOf_append, List.mem_append] at hr
    rcases hr with hr | hr
    · obtain ⟨s, hs, h⟩ := h₁.resolved r hr x hx
      exact ⟨s, .inl hs, h⟩
    · obtain ⟨s, hs, h⟩ := h₂.resolved r hr x hx
      exact ⟨s, .inr hs, h⟩

theorem ofChain {c : Chain} (hc : isManaged c.table = true) : Sound [.chain c] := by
  constructor <;> simp [rulesOf, setsOf, chainsOf, Event.rule?, Event.set?, Event.chain?, hc]

/-- A rule without lookups. -/
theorem ofRule {r : Rule} {t : Str} (hr : r.Built t []) (ht : isManaged t = true)
    {action : RuleAction} {force isNew : Bool} : Sound [.rule r action force isNew] := by
  obtain ⟨hp, hh, rfl, hl⟩ := hr
  constructor <;>
    simp [rulesOf, setsOf, chainsOf, Event.rule?, Event.set?, Event.chain?, hp, hh, ht, hl]

/-- A set followed by rules that look up this set and no other. -/
theorem ofSet {s : NftSet} {els : List SetElement} {fresh : Bool} {es : List Event}
    (hs : s.id = 0 ↔ fresh = false) (ht : isManaged s.table = true) (hne : es ≠ [])
    (hes : ∀ e ∈ es, ∃ r action force isNew, e = .rule r action force isNew ∧
      r.Built s.table [(s.name, s.id)]) : Sound (.set s els fresh :: es) := by
  have hsets : setsOf (.set s els fresh :: es) = [s] := by
    rw [setsOf_cons]
    have : setsOf es = [] := by
      refine List.filterMap_eq_nil_iff.2 fun e he => ?_
      obtain ⟨r, _, _, _, rfl, -⟩ := hes e he
      rfl
    rw [this]
    rfl
  have hchains : chainsOf (.set s els fresh :: es) = [] := by
    refine List.filterMap_eq_nil_iff.2 fun e he => ?_
    rcases List.mem_cons.1 he with rfl | he
    · rfl
    · obtain ⟨r, _, _, _, rfl, -⟩ := hes e he
      rfl
  have hrules : ∀ r ∈ rulesOf (.set s els fresh :: es), r.Built s.table [(s.name, s.id)] := by
    intro r hr
    obtain ⟨action, force, isNew, he⟩ := mem_rulesOf.1 hr
    rcases List.mem_cons.1 he with he | he
    · cases he
    · obtain ⟨r', _, _, _, heq, hb⟩ := hes _ he
      cases heq
      exact hb
  refine ⟨fun r hr => ?_, fun s' els' fresh' h => ?_, ?_, ?_, ?_, fun r hr x hx => ?_⟩
  · have hb := hrules r hr
    exact ⟨hb.plain, hb.handle, by rw [hb.table]; exact ht⟩
  · rcases List.mem_cons.1 h with h | h
    · cases h
      exact hs
    · obtain ⟨_, _, _, _, heq, -⟩ := hes _ h
      cases heq
  · simpa [hsets] using ht
  · simp [hchains]
  · rw [hsets]
    intro s' hs'
    obtain rfl := List.mem_singleton.1 hs'
    obtain ⟨e, he⟩ := List.exists_mem_of_ne_nil es hne
    obtain ⟨r, action, force, isNew, rfl, hb⟩ := hes e he
    refine ⟨r, mem_rulesOf.2 ⟨action, force, isNew, List.mem_cons_of_mem _ he⟩, hb.table, ?_⟩
    rw [hb.lookups]
    exact List.mem_singleton_self _
  · have hb := hrules r hr
    rw [hb.lookups] at hx
    rw [hsets]
    exact ⟨s, List.mem_singleton_self s, hb.table.symm, List.mem_singleton.1 hx⟩

/-- A set followed by one rule that looks it up. -/
theorem ofSetRule {s : NftSet} {els : List SetElement} {fresh : Bool} {r : Rule}
    {action : RuleAction} {force isNew : Bool} (hs : s.id = 0 ↔ fresh = false)
    (ht : isManaged s.table = true) (hr : r.Built s.table [(s.name, s.id)]) :
    Sound [.set s els fresh, .rule r action force isNew] := by
  refine ofSet hs ht (by simp) fun e he => ?_
  obtain rfl := List.mem_singleton.1 he
  exact ⟨r, action, force, isNew, rfl, hr⟩

end Sound

/-! ### Rendering functions -/

/-- What an element is paired with. -/
theorem exists_mem_of_forall₂ {α β : Type} {R : α → β → Prop} {l₁ : List α} {l₂ : List β}
    (h : List.Forall₂ R l₁ l₂) {b : β} (hb : b ∈ l₂) : ∃ a ∈ l₁, R a b := by
  induction h with
  | nil => cases hb
  | cons hab _ ih =>
    rcases List.mem_cons.1 hb with rfl | hb
    · exact ⟨_, List.mem_cons_self .., hab⟩
    · obtain ⟨a, ha, hr⟩ := ih hb
      exact ⟨a, List.mem_cons_of_mem _ ha, hr⟩

theorem Sound.flatten {ess : List (List Event)} (h : ∀ es ∈ ess, Sound es) : Sound ess.flatten := by
  induction ess with
  | nil => exact .nil
  | cons es ess ih =>
    exact (h es (List.mem_cons_self ..)).append (ih fun e he => h e (List.mem_cons_of_mem _ he))

/-- A set that is rendered without an ID has one exactly when it is new. -/
theorem short_id_eq_zero_iff {s : NftSet} {id : Nat} {fresh : Bool} (hs : s.id = 0)
    (hid : if fresh then id ≠ 0 else id = s.id) : (s.short id).id = 0 ↔ fresh = false := by
  cases fresh with
  | false => simpa [NftSet.short, hs] using hid
  | true => simpa [NftSet.short] using hid

namespace Render

variable {bo : ByteOrder} {deps : PolicyDeps} {es : List Event}

theorem sound_forEach {α : Type} {f : Nat → α → Render Unit} {l : List α} {i : Nat} {u : Unit}
    (hf : ∀ j x es, x ∈ l → Exec (f j x) es () → Sound es) (h : Exec (forEach f i l) es u) :
    Sound es := by
  obtain ⟨ess, hess, rfl⟩ := exec_forEach.1 h
  refine Sound.flatten fun e he => ?_
  obtain ⟨⟨x, j⟩, hx, hex⟩ := exists_mem_of_forall₂ hess he
  exact hf j x e (List.fst_mem_of_mem_zipIdx hx) hex

theorem sound_orLoop {α : Type} {f : α → Render Bool} {l : List α} {b : Bool}
    (hf : ∀ x es b, x ∈ l → Exec (f x) es b → Sound es) (h : Exec (orLoop f l) es b) :
    Sound es := by
  obtain ⟨rs, hrs, rfl, -⟩ := exec_orLoop.1 h
  refine Sound.flatten fun e he => ?_
  obtain ⟨r, hr, rfl⟩ := List.mem_map.1 he
  obtain ⟨x, hx, hex⟩ := exists_mem_of_forall₂ hrs hr
  exact hf x _ _ hx hex

theorem sound_when {c : Prop} [Decidable c] {x : Render Unit} {u : Unit}
    (hx : ∀ es u, Exec x es u → Sound es) (h : Exec (when c x) es u) : Sound es := by
  rcases exec_when.1 h with ⟨-, h⟩ | ⟨-, rfl⟩
  · exact hx _ _ h
  · exact .nil

/-- A set and a rule for it, the shape of most calls. -/
theorem sound_setRule {s : NftSet} {els : List SetElement} {r : NftSet → Rule}
    {es₁ es₂ : List Event}
    {action : RuleAction} {force b : Bool} {x : NftSet} (hs : s.id = 0)
    (ht : isManaged s.table = true)
    (hr : ∀ id, (r (s.short id)).Built s.table [((s.short id).name, id)])
    (h₁ : Exec (updateSet s els) es₁ x) (h₂ : Exec (updateRule (r x) action force) es₂ b) :
    Sound (es₁ ++ es₂) := by
  obtain ⟨id, fresh, hid, rfl, rfl⟩ := exec_updateSet.1 h₁
  obtain rfl := exec_updateRule.1 h₂
  exact .ofSetRule (short_id_eq_zero_iff hs hid) ht (hr id)

theorem isManaged_of_filter {t : Str} (ht : t = filterTableName) : isManaged t = true := by
  rw [ht]
  decide

section Policy

variable {chainName policyName portsName : Str} {chain portChain : Chain} {u : Unit}
  (ht : chain.table = filterTableName)
include ht

theorem sound_applyProtoPorts {protocol : Protocol} {els : List SetElement}
    (hp : portChain.table = filterTableName)
    (h : Exec (applyProtoPorts bo chain portsName portChain policyName protocol els) es u) :
    Sound es := by
  refine sound_when (fun es u h => ?_) h
  simp only [applyProtoPortsRules, exec_bind, exec_wrapErr, exec_pure] at h
  obtain ⟨x, es₁, _, h₁, ⟨b, es₂, _, h₂, ⟨-, rfl⟩, rfl⟩, rfl⟩ := h
  rw [List.append_nil]
  exact sound_setRule (r := fun s => protoPortsRule bo portsName portChain policyName s _) rfl
    (isManaged_of_filter ht) (fun id => built_protoPortsRule (hp.trans ht.symm) _ _) h₁ h₂

/-- The calls for the ports of a rule. -/
theorem sound_applyPolicyPortsRules {ports : List MultiNetworkPolicyPort} {index : Nat}
    (h : Exec (applyPolicyPortsRules bo chainName chain policyName ports index) es u) :
    Sound es := by
  simp only [applyPolicyPortsRules, exec_bind, exec_wrapErr, exec_addChain, exec_updateRule,
    exec_ofExcept] at h
  obtain ⟨portChain, _, _, ⟨hp, rfl⟩, ⟨b, _, _, rfl,
    ⟨els, _, _, ⟨-, rfl⟩, ⟨_, es₁, _, h₁, ⟨_, es₂, _,
    h₂, ⟨_, es₃, es₄, h₃, h₄, rfl⟩, rfl⟩, rfl⟩, rfl⟩, rfl⟩, rfl⟩ := h
  have hpt : portChain.table = filterTableName := by rw [hp]; exact ht
  have hm := isManaged_of_filter ht
  rw [← hp]
  refine Sound.append (.ofChain (isManaged_of_filter hpt)) (Sound.append
    (.ofRule (built_policyJumpRule rfl) hm) (Sound.nil.append (Sound.append
      (sound_applyProtoPorts ht hpt h₁) (Sound.append (sound_applyProtoPorts ht hpt h₂)
        (Sound.append (sound_applyProtoPorts ht hpt h₃) (sound_when (fun es u h => ?_) h₄))))))
  simp only [exec_bind, exec_updateRule, exec_pure] at h
  obtain ⟨b, _, _, rfl, ⟨-, rfl⟩, rfl⟩ := h
  exact .ofRule (built_acceptAllRule rfl _ _) (isManaged_of_filter hpt)

theorem sound_applyPrefixes {cidr : Str} {index : Nat} {els except : List SetElement} {isV6 : Bool}
    (h : Exec (applyPrefixes bo chainName chain policyName cidr index els except isV6) es u) :
    Sound es := by
  have hm := isManaged_of_filter ht
  refine sound_when (fun es u h => ?_) h
  simp only [exec_bind, exec_wrapErr, exec_pure] at h
  obtain ⟨_, es₀, _, h₀, ⟨x, es₁, _, h₁, ⟨b, es₂, _, h₂, ⟨-, rfl⟩, rfl⟩, rfl⟩, rfl⟩ := h
  refine Sound.append (sound_when (fun es u h => ?_) h₀) ?_
  · simp only [exec_bind, exec_wrapErr, exec_pure] at h
    obtain ⟨y, es₃, _, h₃, ⟨b, es₄, _, h₄, ⟨-, rfl⟩, rfl⟩, rfl⟩ := h
    rw [List.append_nil]
    refine sound_setRule (r := fun s => exceptRule _ chainName chain policyName cidr s) rfl hm ?_ h₃
      h₄
    exact fun id => built_exceptRule rfl _ _ _
  · rw [List.append_nil]
    refine sound_setRule
      (r := fun s => ipBlockRule bo _ chainName chain policyName cidr s) rfl hm ?_
      h₁ h₂
    exact fun id => built_peerRule rfl _ _

theorem sound_applyPolicyPeersRulesIPBlock {block : IPBlock} {index : Nat}
    (h : Exec (applyPolicyPeersRulesIPBlock bo chainName chain policyName block index) es u) :
    Sound es := by
  simp only [applyPolicyPeersRulesIPBlock, exec_bind, exec_wrapErr, exec_ofExcept] at h
  obtain ⟨_, _, _, ⟨-, rfl⟩, ⟨_, _, _, ⟨-, rfl⟩, ⟨_, es₁, es₂, h₁, h₂, rfl⟩, rfl⟩, rfl⟩ := h
  exact (sound_applyPrefixes ht h₁).append (sound_applyPrefixes ht h₂)

theorem sound_addIPRule {addrs : List Str} {peer : MultiNetworkPolicyPeer} {index : Nat}
    (h : Exec (addIPRule bo chainName addrs chain policyName peer index) es u) : Sound es := by
  cases addrs with
  | nil =>
    obtain ⟨-, rfl⟩ := exec_pure.1 h
    exact .nil
  | cons addr addrs =>
    simp only [addIPRule, exec_bind, exec_pure] at h
    obtain ⟨x, es₁, _, h₁, ⟨b, es₂, _, h₂, ⟨-, rfl⟩, rfl⟩, rfl⟩ := h
    rw [List.append_nil]
    refine sound_setRule (r := fun s => selectorRule bo _ chainName chain policyName _ s) rfl
      (isManaged_of_filter ht) ?_ h₁ h₂
    exact fun id => built_peerRule rfl _ _

theorem sound_applyPolicyPeer {podInfo : PodInfo} {networks : List Str} {index : Nat}
    {peer : MultiNetworkPolicyPeer}
    (h : Exec (applyPolicyPeer bo deps chainName chain policyName podInfo networks index peer) es
      u) : Sound es := by
  unfold applyPolicyPeer at h
  split at h
  · exact sound_applyPolicyPeersRulesIPBlock ht (exec_wrapErr.1 h)
  · split at h
    · simp only [applyPolicyPeersRulesSelector, addIPRules, exec_bind, exec_wrapErr,
        exec_ofExcept] at h
      obtain ⟨_, _, _, ⟨-, rfl⟩, ⟨_, _, _, ⟨-, rfl⟩, ⟨_, _, _, ⟨-, rfl⟩, ⟨_, _, _, ⟨-, rfl⟩,
        ⟨_, es₁, es₂, h₁, h₂, rfl⟩, rfl⟩, rfl⟩, rfl⟩, rfl⟩ := h
      exact (sound_addIPRule ht h₁).append (sound_addIPRule ht h₂)
    · exact absurd h exec_fail

/-- The calls for the peers of a rule. -/
theorem sound_applyPolicyPeersRules {peers : List MultiNetworkPolicyPeer} {podInfo : PodInfo}
    {networks : List Str} {index : Nat}
    (h : Exec (applyPolicyPeersRules bo deps chainName chain policyName peers podInfo
      networks index)
      es u) : Sound es := by
  simp only [applyPolicyPeersRules, exec_bind, exec_wrapErr, exec_addChain, exec_updateRule] at h
  obtain ⟨peersChain, _, _, ⟨hp, rfl⟩, ⟨b, _, _, rfl, ⟨_, es₁, es₂, h₁, h₂, rfl⟩, rfl⟩, rfl⟩ := h
  have hpt : peersChain.table = filterTableName := by rw [hp]; exact ht
  have hm := isManaged_of_filter ht
  rw [← hp]
  refine Sound.append (.ofChain (isManaged_of_filter hpt)) (Sound.append
    (.ofRule (built_policyJumpRule rfl) hm) (Sound.append
      (sound_forEach (fun j x es _ h => ?_) h₁) (sound_when (fun es u h => ?_) h₂)))
  · exact sound_applyPolicyPeer hpt h
  · simp only [exec_bind, exec_updateRule, exec_pure] at h
    obtain ⟨b, _, _, rfl, ⟨-, rfl⟩, rfl⟩ := h
    exact .ofRule (built_acceptAllRule rfl _ _) (isManaged_of_filter hpt)

theorem sound_applyPolicyRule {podInfo : PodInfo} {networks : List Str} {resetName direction : Str}
    {index : Nat} {rule : PolicyRule}
    (h : Exec (applyPolicyRule bo deps chainName chain podInfo networks policyName resetName
      direction index rule) es u) : Sound es := by
  simp only [applyPolicyRule, applyMarkReset, applyMarkCheck, exec_bind, exec_wrapErr,
    exec_updateRule, exec_pure] at h
  obtain ⟨_, _, _, ⟨b₁, _, _, rfl, ⟨-, rfl⟩, rfl⟩, ⟨_, es₁, _, h₁, ⟨_, es₂, _, h₂,
    ⟨b₂, _, _, rfl, ⟨-, rfl⟩, rfl⟩, rfl⟩, rfl⟩, rfl⟩ := h
  have hm := isManaged_of_filter ht
  exact (Sound.ofRule (built_markResetRule rfl _) hm).append
    ((sound_applyPolicyPortsRules ht h₁).append ((sound_applyPolicyPeersRules ht h₂).append
      (Sound.ofRule (built_markCheckRule rfl _) hm)))

/-- The calls for the policies of a direction. -/
theorem sound_applyPolicies {podInfo : PodInfo} {direction : Str} {policies : List InternalPolicy}
    (h : Exec (applyPolicies bo deps chain podInfo direction policies) es u) : Sound es := by
  have hm := isManaged_of_filter ht
  refine sound_when (fun es u h => ?_) h
  simp only [applyDropRemaining, exec_bind, exec_wrapErr, exec_updateRule, exec_pure] at h
  obtain ⟨_, es₁, _, h₁, ⟨b, _, _, rfl, ⟨-, rfl⟩, rfl⟩, rfl⟩ := h
  refine (sound_orLoop (fun p es b _ h => ?_) h₁).append
    (Sound.ofRule (built_dropRemainingRule rfl) hm)
  simp only [applyPolicy, applyPodRules, applyGeneralMarkCheck, exec_bind, exec_wrapErr,
    exec_addChain, exec_updateRule, exec_pure] at h
  obtain ⟨_, _, _, ⟨_, _, _, ⟨rfl, rfl⟩, ⟨_, es₁, _, h₁, ⟨_, es₂, _, h₂, ⟨-, rfl⟩, rfl⟩, rfl⟩, rfl⟩,
    ⟨_, _, _, ⟨b, _, _, rfl, ⟨-, rfl⟩, rfl⟩, ⟨-, rfl⟩, rfl⟩, rfl⟩ := h
  refine Sound.append (Sound.append (Sound.ofChain (isManaged_of_filter rfl)) (Sound.append
    (sound_orLoop (fun i es b _ h => ?_) h₁) (Sound.append ?_ .nil))) (Sound.append ?_ .nil)
  · obtain rfl := exec_updateRule.1 h
    exact Sound.ofRule (built_podInterfaceRule rfl _ _) hm
  · unfold applyPolicyRules at h₂
    split at h₂
    · exact sound_forEach (fun j x es _ h => sound_applyPolicyRule rfl h) h₂
    · exact sound_forEach (fun j x es _ h => sound_applyPolicyRule rfl h) h₂
  · exact Sound.ofRule (built_generalMarkCheckRule rfl _) hm

end Policy

end Render

/-! ### Base and common chains -/

/-- The chains every run has. -/
def NftState.base (bo : ByteOrder) : NftState where
  byteOrder := bo
  input := ⟨filterTableName, str "input", some ⟨str "filter", str "input", 0⟩⟩
  output := ⟨filterTableName, str "output", some ⟨str "filter", str "output", 0⟩⟩
  prerouting := ⟨natTableName, str "prerouting", some ⟨str "nat", str "prerouting", -100⟩⟩
  ingressChain := ⟨filterTableName, MultiNetPolicy.ingressChain, none⟩
  egressChain := ⟨filterTableName, MultiNetPolicy.egressChain, none⟩
  commonIngressChain := ⟨filterTableName, commonChainName MultiNetPolicy.ingressChain, none⟩
  commonEgressChain := ⟨filterTableName, commonChainName MultiNetPolicy.egressChain, none⟩

/-- The same chains in the order they are asked for. -/
def NftState.baseChains : List Chain :=
  [⟨filterTableName, str "input", some ⟨str "filter", str "input", 0⟩⟩,
    ⟨filterTableName, str "output", some ⟨str "filter", str "output", 0⟩⟩,
    ⟨natTableName, str "prerouting", some ⟨str "nat", str "prerouting", -100⟩⟩,
    ⟨filterTableName, MultiNetPolicy.ingressChain, none⟩,
    ⟨filterTableName, MultiNetPolicy.egressChain, none⟩,
    ⟨filterTableName, commonChainName MultiNetPolicy.ingressChain, none⟩,
    ⟨filterTableName, commonChainName MultiNetPolicy.egressChain, none⟩]

namespace Render

variable {bo : ByteOrder} {es : List Event}

/-- The base chains are always the same. -/
theorem exec_bootstrapNetfilterChains {n : NftState} :
    Exec (bootstrapNetfilterChains bo) es n ↔
      n = NftState.base bo ∧ es = NftState.baseChains.map Event.chain := by
  have hshort : ∀ c ∈ NftState.baseChains, c.short = c := by decide
  simp only [bootstrapNetfilterChains, exec_bind, exec_wrapErr, exec_addChain, exec_pure]
  simp only [NftState.baseChains, List.forall_mem_cons, List.not_mem_nil, false_implies,
    implies_true, and_true] at hshort
  obtain ⟨h₁, h₂, h₃, h₄, h₅, h₆, h₇⟩ := hshort
  simp only [h₁, h₂, h₃, h₄, h₅, h₆, h₇]
  constructor
  · rintro ⟨_, _, _, ⟨rfl, rfl⟩, ⟨_, _, _, ⟨rfl, rfl⟩, ⟨_, _, _, ⟨rfl, rfl⟩, ⟨_, _, _, ⟨rfl, rfl⟩,
      ⟨_, _, _, ⟨rfl, rfl⟩, ⟨_, _, _, ⟨rfl, rfl⟩,
        ⟨_, _, _, ⟨rfl, rfl⟩, ⟨rfl, rfl⟩, rfl⟩, rfl⟩, rfl⟩,
      rfl⟩, rfl⟩, rfl⟩, rfl⟩
    exact ⟨rfl, rfl⟩
  · rintro ⟨rfl, rfl⟩
    exact ⟨_, _, _, ⟨rfl, rfl⟩, ⟨_, _, _, ⟨rfl, rfl⟩, ⟨_, _, _, ⟨rfl, rfl⟩, ⟨_, _, _, ⟨rfl, rfl⟩,
      ⟨_, _, _, ⟨rfl, rfl⟩, ⟨_, _, _, ⟨rfl, rfl⟩,
        ⟨_, _, _, ⟨rfl, rfl⟩, ⟨rfl, rfl⟩, rfl⟩, rfl⟩, rfl⟩,
      rfl⟩, rfl⟩, rfl⟩, rfl⟩

theorem sound_baseChains : Sound (NftState.baseChains.map Event.chain) := by
  have h : Sound (NftState.baseChains.map fun c => [Event.chain c]).flatten := by
    refine Sound.flatten fun es hes => ?_
    obtain ⟨c, hc, rfl⟩ := List.mem_map.1 hes
    have hmanaged : ∀ c ∈ NftState.baseChains, isManaged c.table = true := by decide
    exact .ofChain (hmanaged c hc)
  exact h

/-- The rules of the base and entry chains. -/
theorem exec_bootstrapNetfilterRules {interfaces : List InterfaceInfo} {n : NftState}
    (h : Exec (bootstrapNetfilterRules bo interfaces) es n) :
    n = NftState.base bo ∧ ∃ filterSet natSet fresh₁ fresh₂ b₁ b₂ b₃ b₄ b₅,
      (filterSet.table = filterTableName ∧ (filterSet.id = 0 ↔ fresh₁ = false)) ∧
      (natSet.table = natTableName ∧ (natSet.id = 0 ↔ fresh₂ = false)) ∧
      es = NftState.baseChains.map Event.chain ++
        [.set filterSet (interfaceSetElements 0 interfaces) fresh₁,
          .rule (newRule n.input inputInterfaceFilterComment
            (interfaceIn .iifname filterSet ++ [.counter, .verdict .jump n.ingressChain.name]))
            .insertRule false b₁,
          .rule (newRule n.output outputInterfaceFilterComment
            (interfaceIn .oifname filterSet ++ [.counter, .verdict .jump n.egressChain.name]))
            .insertRule false b₂,
          .set natSet (interfaceSetElements 0 interfaces) fresh₂,
          .rule (newRule n.prerouting natFilterRuleComment
            (interfaceIn .iifname natSet ++ [.counter, .verdict .ret []])) .insertRule false b₃,
          .rule (commonJumpRule n.ingressChain n.commonIngressChain (str "common-ingress-chain"))
            .insertRule false b₄,
          .rule (commonJumpRule n.egressChain n.commonEgressChain (str "common-egress-chain"))
            .insertRule false b₅] := by
  simp only [bootstrapNetfilterRules, exec_bind, exec_wrapErr, exec_updateSet, exec_updateRule,
    exec_pure, exec_bootstrapNetfilterChains] at h
  obtain ⟨_, _, _, ⟨rfl, rfl⟩, ⟨_, _, _, ⟨id₁, fresh₁, hid₁, rfl, rfl⟩,
    ⟨b₁, _, _, rfl, ⟨b₂, _, _, rfl,
    ⟨_, _, _, ⟨id₂, fresh₂, hid₂, rfl, rfl⟩, ⟨b₃, _, _, rfl, ⟨b₄, _, _, rfl, ⟨b₅, _, _, rfl,
      ⟨rfl, rfl⟩, rfl⟩, rfl⟩, rfl⟩, rfl⟩, rfl⟩, rfl⟩, rfl⟩, rfl⟩ := h
  exact ⟨rfl, _, _, fresh₁, fresh₂, b₁, b₂, b₃, b₄, b₅, ⟨rfl, short_id_eq_zero_iff rfl hid₁⟩,
    ⟨rfl, short_id_eq_zero_iff rfl hid₂⟩, rfl⟩

/-- The calls for the base chains. -/
theorem sound_bootstrapNetfilterRules {interfaces : List InterfaceInfo} {n : NftState}
    (h : Exec (bootstrapNetfilterRules bo interfaces) es n) : Sound es := by
  obtain ⟨rfl, filterSet, natSet, fresh₁, fresh₂, b₁, b₂, b₃, b₄, b₅, ⟨ht₁, hid₁⟩,
    ⟨ht₂, hid₂⟩, rfl⟩ :=
    exec_bootstrapNetfilterRules h
  change Sound (_ ++ ([_, _, _] ++ ([_, _] ++ ([_] ++ [_]))))
  refine sound_baseChains.append (Sound.append ?_ (Sound.append ?_ (Sound.append
    (.ofRule (built_newRule rfl rfl rfl) (isManaged_of_filter rfl))
      (.ofRule (built_newRule rfl rfl rfl) (isManaged_of_filter rfl)))))
  · refine Sound.ofSet hid₁ (by rw [ht₁]; decide) (by simp) ?_
    intro e he
    rcases List.mem_cons.1 he with rfl | he
    · exact ⟨_, _, _, _, rfl, built_newRule ht₁.symm rfl rfl⟩
    · obtain rfl := List.mem_singleton.1 he
      exact ⟨_, _, _, _, rfl, built_newRule ht₁.symm rfl rfl⟩
  · exact .ofSetRule hid₂ (by rw [ht₂]; decide) (built_newRule ht₂.symm rfl rfl)

section Common

variable {chain : Chain} {u : Unit} (ht : chain.table = filterTableName)
include ht

theorem sound_allowICMP {icmpv6 : Bool} (h : Exec (allowICMP chain icmpv6) es u) : Sound es := by
  simp only [allowICMP, exec_bind, exec_updateRule, exec_pure] at h
  obtain ⟨b, _, _, rfl, ⟨-, rfl⟩, rfl⟩ := h
  exact .ofRule (built_newRule rfl rfl rfl) (isManaged_of_filter ht)

theorem sound_allowNeighborDiscovery (h : Exec (allowNeighborDiscovery chain) es u) : Sound es := by
  simp only [allowNeighborDiscovery, exec_bind, exec_wrapErr, exec_pure] at h
  obtain ⟨x, es₁, _, h₁, ⟨b, es₂, _, h₂, ⟨-, rfl⟩, rfl⟩, rfl⟩ := h
  obtain ⟨id, fresh, hid, rfl, rfl⟩ := exec_updateSet.1 h₁
  obtain rfl := exec_updateRule.1 h₂
  exact .ofSetRule (short_id_eq_zero_iff rfl hid) (isManaged_of_filter rfl)
    (built_newRule ht rfl rfl)

theorem sound_applyCommonPrefixFamily {set : NftSet} {els : List SetElement} {proto : UInt8}
    {offset len : Nat} (hs : set.id = 0) (hst : set.table = filterTableName)
    (h : Exec (applyCommonPrefixFamily chain set els proto offset len) es u) : Sound es := by
  refine sound_when (fun es u h => ?_) h
  simp only [exec_bind, exec_wrapErr, exec_pure] at h
  obtain ⟨x, es₁, _, h₁, ⟨b, es₂, _, h₂, ⟨-, rfl⟩, rfl⟩, rfl⟩ := h
  obtain ⟨id, fresh, hid, rfl, rfl⟩ := exec_updateSet.1 h₁
  obtain rfl := exec_updateRule.1 h₂
  exact .ofSetRule (short_id_eq_zero_iff hs hid) (isManaged_of_filter hst)
    (built_newRule (ht.trans hst.symm) rfl rfl)

theorem sound_applyCommonPrefixRules {prefixes : List Str} {name : Str}
    (h : Exec (applyCommonPrefixRules chain prefixes name) es u) : Sound es := by
  simp only [applyCommonPrefixRules, exec_bind, exec_wrapErr, exec_ofExcept] at h
  obtain ⟨_, _, _, ⟨-, rfl⟩, ⟨_, es₁, es₂, h₁, h₂, rfl⟩, rfl⟩ := h
  exact (sound_applyCommonPrefixFamily ht rfl rfl h₁).append
    (sound_applyCommonPrefixFamily ht rfl rfl h₂)

theorem sound_allowConntracked (h : Exec (allowConntracked bo chain) es u) : Sound es := by
  simp only [allowConntracked, exec_bind, exec_updateRule, exec_pure] at h
  obtain ⟨b, _, _, rfl, ⟨-, rfl⟩, rfl⟩ := h
  exact .ofRule (built_newRule rfl rfl rfl) (isManaged_of_filter ht)

end Common

/-- The calls for the common chains. -/
theorem sound_applyCommonChainRules {cfg : CommonRuleConfig} {u : Unit}
    (h : Exec (applyCommonChainRules (NftState.base bo) cfg) es u) : Sound es := by
  simp only [applyCommonChainRules, exec_bind, exec_wrapErr] at h
  obtain ⟨_, es₁, _, h₁, ⟨_, es₂, _, h₂, ⟨_, es₃, _, h₃, ⟨_, es₄, _, h₄, ⟨_, es₅, es₆, h₅, h₆, rfl⟩,
    rfl⟩, rfl⟩, rfl⟩, rfl⟩ := h
  refine Sound.append ?_ (Sound.append (sound_when (fun es u h => ?_) h₂) (Sound.append
    (sound_when (fun es u h => ?_) h₃) (Sound.append (sound_when (fun es u h => ?_) h₄)
      (Sound.append (sound_allowConntracked rfl h₅) (sound_allowConntracked rfl h₆)))))
  · unfold applyCommonICMPv6 at h₁
    split at h₁ <;> simp only [exec_bind, exec_wrapErr] at h₁
    · obtain ⟨_, es₁, es₂, h₁, h₂, rfl⟩ := h₁
      exact (sound_allowICMP rfl h₁).append (sound_allowICMP rfl h₂)
    · obtain ⟨_, es₁, es₂, h₁, h₂, rfl⟩ := h₁
      exact (sound_allowNeighborDiscovery rfl h₁).append (sound_allowNeighborDiscovery rfl h₂)
  · simp only [exec_bind, exec_wrapErr] at h
    obtain ⟨_, es₁, es₂, h₁, h₂, rfl⟩ := h
    exact (sound_allowICMP rfl h₁).append (sound_allowICMP rfl h₂)
  · exact sound_applyCommonPrefixRules rfl (exec_wrapErr.1 h)
  · exact sound_applyCommonPrefixRules rfl (exec_wrapErr.1 h)

/-- The four parts of a rendering. -/
theorem exec_renderInput {i : Input} {u : Unit} (h : Exec (renderInput bo i) es u) :
    ∃ es₁ es₂ es₃ es₄, es = es₁ ++ (es₂ ++ (es₃ ++ es₄)) ∧
      Exec (bootstrapNetfilterRules bo i.sortedInfo.interfaces) es₁ (NftState.base bo) ∧
      Exec (applyCommonChainRules (NftState.base bo) i.cfg) es₂ () ∧
      Exec (applyPolicies bo i.deps (NftState.base bo).ingressChain i.sortedInfo (str "ingress")
        i.ingressPolicies) es₃ () ∧
      Exec (applyPolicies bo i.deps (NftState.base bo).egressChain i.sortedInfo (str "egress")
        i.egressPolicies) es₄ () := by
  simp only [renderInput, exec_bind, exec_wrapErr] at h
  obtain ⟨n, es₁, _, h₁, ⟨_, es₂, _, h₂, ⟨_, es₃, es₄, h₃, h₄, rfl⟩, rfl⟩, rfl⟩ := h
  obtain ⟨rfl, -⟩ := exec_bootstrapNetfilterRules h₁
  exact ⟨es₁, es₂, es₃, es₄, rfl, h₁, h₂, h₃, h₄⟩

/-- **The calls of a whole rendering are sound.** -/
theorem sound_renderInput {i : Input} {u : Unit} (h : Exec (renderInput bo i) es u) : Sound es := by
  obtain ⟨es₁, es₂, es₃, es₄, rfl, h₁, h₂, h₃, h₄⟩ := exec_renderInput h
  exact (sound_bootstrapNetfilterRules h₁).append ((sound_applyCommonChainRules h₂).append
    ((sound_applyPolicies rfl h₃).append (sound_applyPolicies rfl h₄)))

end Render

end MultiNetPolicy
