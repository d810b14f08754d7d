import MultiNetPolicy.Equiv.Alike
import MultiNetPolicy.Equiv.Busy
import MultiNetPolicy.Equiv.Stale

/-!
# Runs that find everything in place

When every chain, set and rule that a program asks for is committed with the contents it asks for
(`Request.Settled`), its calls are answered the same way at every step: nothing is new.  `Quiet`
follows this path through a program: sets have no IDs on it, so that rules are built as they are
listed, and no rule is forced.

* `quiet_renderInput`: the rendering functions.
* `Render.run_settled`: such a program succeeds and queues nothing.
* `passes_cleanup`: a cleanup of a ruleset in which everything was asked for commits nothing.
-/

namespace MultiNetPolicy

open ByteString StateExcept

namespace Render

variable {α β : Type}

/-! ### The path on which nothing is new -/

/-- On the path on which nothing is new, sets and lookups have no IDs, no rule is forced, and the
result satisfies `R`. -/
def Quiet (R : α → Prop) : Render α → Prop
  | ret a => R a
  | fail _ => True
  | chain _ c k => Quiet R (k c.short)
  | set _ s _ k => s.id = 0 ∧ Quiet R (k (s.short 0))
  | rule _ r _ force k => (r.listed = r ∧ force = false) ∧ Quiet R (k false)

/-- An execution on this path forces no rule. -/
theorem Quiet.not_forced {R : α → Prop} {p : Render α} {es : List Event} {a : α} (hp : Quiet R p)
    (hexec : Exec p es a) (hids : ∀ x ∈ setsOf es, x.id = 0)
    (hold : ∀ r action force isNew, .rule r action force isNew ∈ es → isNew = false) :
    ∀ r action force isNew, .rule r action force isNew ∈ es → force = false := by
  -- only a new rule makes the rendering force another one
  induction hexec with
  | ret a => intro r action force isNew he; cases he
  | chain _ ih =>
    intro r action force isNew he
    refine ih hp hids (fun r action force isNew he' => hold r action force isNew ?_) r action force
      isNew ?_
    · exact List.mem_cons_of_mem _ he'
    · exact (List.mem_cons.1 he).resolve_left nofun
  | set id fresh hid _ ih =>
    have hzero : id = 0 := hids _ (List.mem_cons_self ..)
    subst hzero
    intro r action force isNew he
    refine ih hp.2 (fun x hx => hids x (List.mem_cons_of_mem _ hx))
      (fun r action force isNew he' => hold r action force isNew ?_) r action force isNew ?_
    · exact List.mem_cons_of_mem _ he'
    · exact (List.mem_cons.1 he).resolve_left nofun
  | rule isNew _ ih =>
    obtain rfl := hold _ _ _ _ (List.mem_cons_self ..)
    intro r action force isNew he
    rcases List.mem_cons.1 he with heq | he
    · cases heq
      exact hp.1.2
    · exact ih hp.2 hids (fun r action force isNew he' =>
        hold r action force isNew (List.mem_cons_of_mem _ he')) r action force isNew he

/-- What the first program returns on that path is known to the second. -/
theorem quiet_bind {R : α → Prop} {S : β → Prop} {p : Render α} {f : α → Render β}
    (hp : Quiet R p) (hf : ∀ a, R a → Quiet S (f a)) : Quiet S (p >>= f) := by
  change Quiet S (Render.bind p f)
  induction p with
  | ret a => exact hf a hp
  | fail e => trivial
  | chain w c k ih => exact ih _ hp
  | set w s els k ih => exact ⟨hp.1, ih _ hp.2⟩
  | rule w r action force k ih => exact ⟨hp.1, ih _ hp.2⟩

theorem quiet_wrapErr {R : α → Prop} {context : Str} {p : Render α} (hp : Quiet R p) :
    Quiet R (wrapErr context p) := by
  induction p with
  | ret a => exact hp
  | fail e => trivial
  | chain w c k ih => exact ih _ hp
  | set w s els k ih => exact ⟨hp.1, ih _ hp.2⟩
  | rule w r action force k ih => exact ⟨hp.1, ih _ hp.2⟩

theorem quiet_ofExcept (e : Except Error α) : Quiet (fun _ => True) (ofExcept e) := by
  cases e <;> trivial

theorem quiet_addChain (c : Chain) : Quiet (· = c.short) (addChain c) := rfl

/-- A set that exists has no identifier of its own. -/
theorem quiet_updateSet {s : NftSet} (hs : s.id = 0) (els : List SetElement) :
    Quiet (· = s.short 0) (updateSet s els) := ⟨hs, rfl⟩

/-- A rule that exists is not added. -/
theorem quiet_updateRule {r : Rule} (hr : r.listed = r) (action : RuleAction) :
    Quiet (· = false) (updateRule r action false) := ⟨⟨hr, rfl⟩, rfl⟩

/-- A call whose result is thrown away. -/
theorem quiet_updateRule_unit {r : Rule} (hr : r.listed = r) (action : RuleAction) :
    Quiet (fun _ => True) (do let _ ← updateRule r action false) :=
  quiet_bind (quiet_updateRule hr action) fun _ _ => trivial

theorem quiet_when {c : Prop} [Decidable c] {p : Render Unit} (h : Quiet (fun _ => True) p) :
    Quiet (fun _ => True) (when c p) := by
  unfold when
  split
  · exact h
  · trivial

theorem quiet_forEach {f : Nat → α → Render Unit} (h : ∀ j x, Quiet (fun _ => True) (f j x)) :
    ∀ (l : List α) (i : Nat), Quiet (fun _ => True) (forEach f i l)
  | [], _ => trivial
  | x :: xs, i => quiet_bind (h i x) fun _ _ => quiet_forEach h xs (i + 1)

/-- A loop in which nothing is new. -/
theorem quiet_orLoop {f : α → Render Bool} (h : ∀ x, Quiet (· = false) (f x)) :
    ∀ l : List α, Quiet (· = false) (orLoop f l)
  | [] => rfl
  | x :: xs => by
    refine quiet_bind (h x) fun b hb => quiet_bind (quiet_orLoop h xs) fun bs hbs => ?_
    rw [hb, hbs]
    rfl

/-! ### The rendering functions -/

variable {bo : ByteOrder} {deps : PolicyDeps}

theorem quiet_applyProtoPorts {chain portChain : Chain} {portsName policyName : Str}
    {protocol : Protocol} {els : List SetElement} :
    Quiet (fun _ => True)
      (applyProtoPorts bo chain portsName portChain policyName protocol els) := by
  refine quiet_when (quiet_bind (quiet_updateSet rfl els) fun set hset => ?_)
  rw [hset]
  exact quiet_wrapErr (quiet_updateRule_unit rfl _)

theorem quiet_applyPolicyPortsRules {chain : Chain} {chainName policyName : Str}
    {ports : List MultiNetworkPolicyPort} {index : Nat} :
    Quiet (fun _ => True) (applyPolicyPortsRules bo chainName chain policyName ports index) :=
  quiet_bind (quiet_wrapErr (quiet_addChain _)) fun _ _ =>
    quiet_bind (quiet_updateRule rfl _) fun _ _ => quiet_bind (quiet_ofExcept _) fun _ _ =>
      quiet_bind quiet_applyProtoPorts fun _ _ => quiet_bind quiet_applyProtoPorts fun _ _ =>
        quiet_bind quiet_applyProtoPorts fun _ _ => quiet_when (quiet_updateRule_unit rfl _)

theorem quiet_applyPrefixes {chain : Chain} {chainName policyName cidr : Str} {index : Nat}
    {els except : List SetElement} {isV6 : Bool} :
    Quiet (fun _ => True)
      (applyPrefixes bo chainName chain policyName cidr index els except isV6) := by
  refine quiet_when (quiet_bind (quiet_when ?_) fun _ _ => ?_)
  · refine quiet_bind (quiet_wrapErr (quiet_updateSet rfl except)) fun set hset => ?_
    rw [hset]
    exact quiet_updateRule_unit rfl _
  · refine quiet_bind (quiet_wrapErr (quiet_updateSet rfl els)) fun set hset => ?_
    rw [hset]
    exact quiet_updateRule_unit rfl _

theorem quiet_addIPRule {chain : Chain} {chainName policyName : Str} {addrs : List Str}
    {peer : MultiNetworkPolicyPeer} {index : Nat} :
    Quiet (fun _ => True) (addIPRule bo chainName addrs chain policyName peer index) := by
  cases addrs with
  | nil => trivial
  | cons addr addrs =>
    refine quiet_bind (quiet_updateSet rfl _) fun set hset => ?_
    rw [hset]
    exact quiet_updateRule_unit rfl _

theorem quiet_applyPolicyPeer {chain : Chain} {chainName policyName : Str} {podInfo : PodInfo}
    {networks : List Str} {index : Nat} {peer : MultiNetworkPolicyPeer} :
    Quiet (fun _ => True)
      (applyPolicyPeer bo deps chainName chain policyName podInfo networks index peer) := by
  unfold applyPolicyPeer
  split
  · exact quiet_wrapErr (quiet_bind (quiet_wrapErr (quiet_ofExcept _)) fun _ _ =>
      quiet_bind (quiet_wrapErr (quiet_ofExcept _)) fun _ _ =>
        quiet_bind (quiet_wrapErr quiet_applyPrefixes) fun _ _ =>
          quiet_wrapErr quiet_applyPrefixes)
  · split
    · exact quiet_wrapErr (quiet_bind (quiet_wrapErr (quiet_ofExcept _)) fun _ _ =>
        quiet_bind (quiet_wrapErr (quiet_ofExcept _)) fun _ _ =>
          quiet_bind (quiet_wrapErr (quiet_ofExcept _)) fun _ _ =>
            quiet_wrapErr (quiet_bind (quiet_ofExcept _) fun _ _ =>
              quiet_bind (quiet_wrapErr quiet_addIPRule) fun _ _ =>
                quiet_wrapErr quiet_addIPRule))
    · trivial

theorem quiet_applyPolicyPeersRules {chain : Chain} {chainName policyName : Str}
    {peers : List MultiNetworkPolicyPeer} {podInfo : PodInfo} {networks : List Str} {index : Nat} :
    Quiet (fun _ => True) (applyPolicyPeersRules bo deps chainName chain policyName peers podInfo
      networks index) :=
  quiet_bind (quiet_wrapErr (quiet_addChain _)) fun _ _ =>
    quiet_bind (quiet_updateRule rfl _) fun _ _ =>
      quiet_bind (quiet_forEach (fun _ _ => quiet_applyPolicyPeer) _ _) fun _ _ =>
        quiet_when (quiet_updateRule_unit rfl _)

theorem quiet_applyPolicyRules {chain : Chain} {chainName : Str} {podInfo : PodInfo}
    {networks : List Str} {policy : MultiNetworkPolicy} :
    Quiet (fun _ => True) (applyPolicyRules bo deps chainName chain podInfo networks policy) := by
  have hrule : ∀ {policyName resetName direction : Str} (index : Nat) (rule : PolicyRule),
      Quiet (fun _ => True) (applyPolicyRule bo deps chainName chain podInfo networks policyName
        resetName direction index rule) := fun _ _ =>
    quiet_bind (quiet_wrapErr (quiet_updateRule_unit rfl _)) fun _ _ =>
      quiet_bind (quiet_wrapErr quiet_applyPolicyPortsRules) fun _ _ =>
        quiet_bind (quiet_wrapErr quiet_applyPolicyPeersRules) fun _ _ =>
          quiet_wrapErr (quiet_updateRule_unit rfl _)
  unfold applyPolicyRules
  split
  · exact quiet_forEach hrule _ _
  · exact quiet_forEach hrule _ _

/-- No interface rule is new, so that the drop at the end of an entry chain is not forced. -/
theorem quiet_applyPolicies {chain : Chain} {podInfo : PodInfo} {direction : Str}
    {policies : List InternalPolicy} :
    Quiet (fun _ => True) (applyPolicies bo deps chain podInfo direction policies) := by
  have hpod : ∀ p : InternalPolicy,
      Quiet (· = false) (applyPodRules bo deps chain podInfo p.policy p.policyNetworks) := by
    intro p
    refine quiet_bind (quiet_wrapErr (quiet_addChain _)) fun _ _ => ?_
    refine quiet_bind (quiet_wrapErr (quiet_orLoop (fun _ => quiet_updateRule rfl _) _)) ?_
    exact fun b hb => quiet_bind quiet_applyPolicyRules fun _ _ => hb
  refine quiet_when (quiet_bind (quiet_orLoop (fun p => ?_) _) fun force hforce => ?_)
  · refine quiet_bind (quiet_wrapErr (hpod p)) fun b hb => ?_
    exact quiet_bind (quiet_wrapErr (quiet_updateRule_unit rfl _)) fun _ _ => hb
  · rw [hforce]
    exact quiet_wrapErr (quiet_updateRule_unit rfl _)

/-- The base chains. -/
theorem quiet_bootstrapNetfilterRules {interfaces : List InterfaceInfo} :
    Quiet (fun _ => True) (bootstrapNetfilterRules bo interfaces) := by
  have hchains : Quiet (fun _ => True) (bootstrapNetfilterChains bo) :=
    quiet_bind (quiet_wrapErr (quiet_addChain _)) fun _ _ =>
      quiet_bind (quiet_wrapErr (quiet_addChain _)) fun _ _ =>
        quiet_bind (quiet_wrapErr (quiet_addChain _)) fun _ _ =>
          quiet_bind (quiet_wrapErr (quiet_addChain _)) fun _ _ =>
            quiet_bind (quiet_wrapErr (quiet_addChain _)) fun _ _ =>
              quiet_bind (quiet_wrapErr (quiet_addChain _)) fun _ _ =>
                quiet_bind (quiet_wrapErr (quiet_addChain _)) fun _ _ => trivial
  refine quiet_bind hchains fun n _ => ?_
  refine quiet_bind (quiet_wrapErr (quiet_updateSet rfl _)) fun filterSet hfilter => ?_
  rw [hfilter]
  refine quiet_bind (quiet_wrapErr (quiet_updateRule rfl _)) fun _ _ => ?_
  refine quiet_bind (quiet_wrapErr (quiet_updateRule rfl _)) fun _ _ => ?_
  refine quiet_bind (quiet_wrapErr (quiet_updateSet rfl _)) fun natSet hnat => ?_
  rw [hnat]
  exact quiet_bind (quiet_updateRule rfl _) fun _ _ => quiet_bind (quiet_updateRule rfl _)
    fun _ _ => quiet_bind (quiet_updateRule rfl _) fun _ _ => trivial

theorem quiet_applyCommonPrefixRules {chain : Chain} {prefixes : List Str} {name : Str} :
    Quiet (fun _ => True) (applyCommonPrefixRules chain prefixes name) := by
  have hfamily : ∀ {name : Str} {keyType : SetDatatype} {els : List SetElement} {proto : UInt8}
      {offset len : Nat}, Quiet (fun _ => True)
        (applyCommonPrefixFamily chain (commonPrefixSet name keyType) els proto offset len) := by
    intro name keyType els proto offset len
    refine quiet_when (quiet_bind (quiet_wrapErr (quiet_updateSet rfl _)) fun set hset => ?_)
    rw [hset]
    exact quiet_updateRule_unit rfl _
  exact quiet_bind (quiet_wrapErr (quiet_ofExcept _)) fun _ _ =>
    quiet_bind hfamily fun _ _ => hfamily

/-- The common chains. -/
theorem quiet_applyCommonChainRules {n : NftState} {cfg : CommonRuleConfig} :
    Quiet (fun _ => True) (applyCommonChainRules n cfg) := by
  have hndp : ∀ chain, Quiet (fun _ => True) (allowNeighborDiscovery chain) := by
    intro chain
    refine quiet_bind (quiet_wrapErr (quiet_updateSet rfl _)) fun set hset => ?_
    rw [hset]
    exact quiet_bind (quiet_wrapErr (quiet_updateRule rfl _)) fun _ _ => trivial
  have hicmp : ∀ chain v6, Quiet (fun _ => True) (allowICMP chain v6) :=
    fun _ _ => quiet_updateRule_unit rfl _
  have hicmpv6 : Quiet (fun _ => True) (applyCommonICMPv6 n cfg.acceptICMPv6) := by
    unfold applyCommonICMPv6
    split
    · exact quiet_bind (quiet_wrapErr (hicmp _ _)) fun _ _ => quiet_wrapErr (hicmp _ _)
    · exact quiet_bind (quiet_wrapErr (hndp _)) fun _ _ => quiet_wrapErr (hndp _)
  refine quiet_bind hicmpv6 fun _ _ => ?_
  refine quiet_bind (quiet_when (quiet_bind (quiet_wrapErr (hicmp _ _)) fun _ _ =>
    quiet_wrapErr (hicmp _ _))) fun _ _ => ?_
  refine quiet_bind (quiet_when (quiet_wrapErr quiet_applyCommonPrefixRules)) fun _ _ => ?_
  refine quiet_bind (quiet_when (quiet_wrapErr quiet_applyCommonPrefixRules)) fun _ _ => ?_
  exact quiet_bind (quiet_wrapErr (quiet_updateRule_unit rfl _)) fun _ _ =>
    quiet_wrapErr (quiet_updateRule_unit rfl _)

/-- **When nothing is new, nothing is forced.** -/
theorem quiet_renderInput (i : Input) : Quiet (fun _ => True) (renderInput bo i) :=
  quiet_bind (quiet_wrapErr quiet_bootstrapNetfilterRules) fun _ _ =>
    quiet_bind (quiet_wrapErr quiet_applyCommonChainRules) fun _ _ =>
      quiet_bind quiet_applyPolicies fun _ _ => quiet_applyPolicies

end Render

/-! ### Requests for what is there -/

/-- What is asked for is committed, a set with the keys that are wanted. -/
def Request.Settled (k : Kernel) : Request → Prop
  | chain c => k.hasChain c.table c.name = true
  | set s els => k.hasSet s.table s.name = true ∧ SameKeys els (k.getElements s.table s.name)
  | rule r _ => (k.findRule r).isSome = true

/-- Requests for the same things, with the same elements for sets. -/
inductive Request.Alike : Request → Request → Prop where
  | chain (c : Chain) : Alike (.chain c) (.chain c)
  | set (s : NftSet) {els els' : List SetElement} (h : SameElements els els') :
      Alike (.set s els) (.set s els')
  | rule (r : Rule) (action : RuleAction) : Alike (.rule r action) (.rule r action)

/-- The order of elements does not matter. -/
theorem SameKeys.congr_left {a a' b : List SetElement} (h : SameElements a a')
    (hab : SameKeys a b) :
    SameKeys a' b := by
  refine ⟨fun x hx => hab.1 x ((h x).2 hx), fun y hy => ?_⟩
  obtain ⟨x, hx, hkey⟩ := hab.2 y hy
  exact ⟨x, (h x).1 hx, hkey⟩

/-- What is there is there in any order. -/
theorem Request.Settled.alike {k : Kernel} {q q' : Request} (h : q.Alike q') (hq : q.Settled k) :
    q'.Settled k := by
  cases h with
  | chain c => exact hq
  | set s hels => exact ⟨hq.1, hq.2.congr_left hels⟩
  | rule r action => exact hq

namespace Render

/-- Programs that make the same calls have alike plans. -/
theorem Sim.plan {α β : Type} {R : α → β → Prop} {p : Render α} {q : Render β} (h : Sim R p q)
    {rs : List Request} {a : α} (hp : p.plan = some (rs, a)) :
    ∃ rs' b, q.plan = some (rs', b) ∧ List.Forall₂ Request.Alike rs rs' := by
  induction h generalizing rs with
  | ret hab =>
    cases hp
    exact ⟨[], _, rfl, .nil⟩
  | fail e e' => cases hp
  | chain _ ih =>
    obtain ⟨⟨rest, _⟩, hk, heq⟩ := Option.map_eq_some_iff.1 hp
    cases heq
    obtain ⟨rest', b, hk', halike⟩ := ih hk
    exact ⟨_, b, by rw [Render.plan, hk']; rfl, .cons (.chain _) halike⟩
  | set hels _ ih =>
    obtain ⟨⟨rest, _⟩, hk, heq⟩ := Option.map_eq_some_iff.1 hp
    cases heq
    obtain ⟨rest', b, hk', halike⟩ := ih _ hk
    exact ⟨_, b, by rw [Render.plan, hk']; rfl, .cons (.set _ hels) halike⟩
  | rule _ ih =>
    obtain ⟨⟨rest, _⟩, hk, heq⟩ := Option.map_eq_some_iff.1 hp
    cases heq
    obtain ⟨rest', b, hk', halike⟩ := ih _ hk
    exact ⟨_, b, by rw [Render.plan, hk']; rfl, .cons (.rule _ _) halike⟩

end Render

/-! ### Calls that find everything in place -/

section Answers

variable {h : Host} (hf : ∀ n, h.fault n = false) {s : State}
include hf

/-- A chain that is there. -/
theorem addChain_settled {c : Chain} (hc : s.kernel.hasChain c.table (shortName c.name) = true) :
    ∃ s', addChain h c s = .ok c.short s' ∧ s'.kernel = s.kernel ∧ s'.messages = s.messages := by
  obtain ⟨x, hx⟩ := Option.isSome_iff_exists.1 hc
  have hlist : Conn.listChain h c.table (shortName c.name) s =
      .ok (some x) { s with queries := s.queries + 1 } := by
    unfold Conn.listChain
    rw [bind_apply, request_apply, hf, ← hx]
    rfl
  unfold addChain
  rw [bind_apply, hlist]
  exact ⟨_, rfl, rfl, rfl⟩

/-- A set that has the wanted keys. -/
theorem updateSet_settled {x : NftSet} {els : List SetElement}
    (hx : s.kernel.hasSet x.table (shortName x.name) = true)
    (hkeys : SameKeys els (s.kernel.getElements x.table (shortName x.name))) :
    ∃ s', updateSet h x els s = .ok (x.short x.id) s' ∧ s'.kernel = s.kernel ∧
      s'.messages = s.messages := by
  obtain ⟨y, hy⟩ := Option.isSome_iff_exists.1 hx
  have hfound := List.find?_some hy
  rw [Bool.and_eq_true, beq_iff_eq, beq_iff_eq] at hfound
  refine ⟨{ s with
    queries := s.queries + 1 + 1
    sets := s.sets ++ [objectKey x.table (shortName x.name)] }, ?_, rfl, rfl⟩
  refine bind_eq_ok.2 ⟨some y, { s with queries := s.queries + 1 },
    wrapErr_eq_ok.2 (query_eq_ok.2 ⟨hf _, hy.symm, rfl⟩), ?_⟩
  refine bind_eq_ok.2 ⟨s.kernel.getElements y.table y.name,
    { s with queries := s.queries + 1 + 1 }, mapErr_eq_ok.2 (query_eq_ok.2 ⟨hf _, rfl, rfl⟩), ?_⟩
  have hadd := findNonCommon_eq_nil_iff.2 hkeys.1
  have hdel := findNonCommon_eq_nil_iff.2 hkeys.2
  rw [hfound.1, hfound.2]
  simp only [processElements, hadd, hdel]
  rfl

/-- A rule that is there. -/
theorem updateRule_settled {r : Rule} (hr : (s.kernel.findRule r).isSome = true)
    (action : RuleAction) :
    ∃ s', updateRule h r action false s = .ok false s' ∧ s'.kernel = s.kernel ∧
      s'.messages = s.messages := by
  obtain ⟨x, hx⟩ := Option.isSome_iff_exists.1 hr
  refine ⟨{ s with
    queries := s.queries + 1
    rules := s.rules ++ [hashRule h x]
    requested := s.requested ++ [r] }, ?_, rfl, rfl⟩
  refine bind_eq_ok.2 ⟨⟨⟩, { s with requested := s.requested ++ [r] }, rfl, ?_⟩
  refine bind_eq_ok.2 ⟨some x,
    { s with queries := s.queries + 1, requested := s.requested ++ [r] },
    wrapErr_eq_ok.2 (findRule_eq_ok.2 ⟨hf _, hx.symm, rfl⟩), ?_⟩
  rfl

/-- **A program whose requests are settled succeeds and queues nothing.** -/
theorem Render.run_settled {α : Type} {R : α → Prop} {p : Render α} (hquiet : Quiet R p)
    {rs : List Request} {a : α} (hplan : p.plan = some (rs, a))
    (hrs : ∀ q ∈ rs, q.Settled s.kernel) :
    ∃ s', p.run h s = .ok a s' ∧ s'.kernel = s.kernel ∧ s'.messages = s.messages := by
  -- each call finds its object as it wants it, so that nothing is queued
  induction p generalizing s rs with
  | ret b =>
    cases hplan
    exact ⟨s, rfl, rfl, rfl⟩
  | fail e => cases hplan
  | chain w c k ih =>
    obtain ⟨⟨rest, _⟩, hk, heq⟩ := Option.map_eq_some_iff.1 hplan
    cases heq
    have hc : s.kernel.hasChain c.table (shortName c.name) = true :=
      hrs _ (List.mem_cons_self ..)
    obtain ⟨s₁, hs₁, hk₁, hm₁⟩ := addChain_settled hf hc
    obtain ⟨s', hs', hk', hm'⟩ := ih _ hquiet hk
      (by rw [hk₁]; exact fun q hq => hrs q (List.mem_cons_of_mem _ hq))
    exact ⟨s', bind_eq_ok.2 ⟨_, s₁, mapErr_eq_ok.2 hs₁, hs'⟩, hk'.trans hk₁, hm'.trans hm₁⟩
  | set w x els k ih =>
    obtain ⟨⟨rest, _⟩, hk, heq⟩ := Option.map_eq_some_iff.1 hplan
    cases heq
    have hx : s.kernel.hasSet x.table (shortName x.name) = true :=
      (hrs _ (List.mem_cons_self ..)).1
    have hkeys : SameKeys els (s.kernel.getElements x.table (shortName x.name)) :=
      (hrs _ (List.mem_cons_self ..)).2
    obtain ⟨s₁, hs₁, hk₁, hm₁⟩ := updateSet_settled hf hx hkeys
    rw [hquiet.1] at hs₁
    obtain ⟨s', hs', hk', hm'⟩ := ih _ hquiet.2 hk
      (by rw [hk₁]; exact fun q hq => hrs q (List.mem_cons_of_mem _ hq))
    exact ⟨s', bind_eq_ok.2 ⟨_, s₁, mapErr_eq_ok.2 hs₁, hs'⟩, hk'.trans hk₁, hm'.trans hm₁⟩
  | rule w r action force k ih =>
    obtain ⟨⟨rest, _⟩, hk, heq⟩ := Option.map_eq_some_iff.1 hplan
    cases heq
    obtain ⟨⟨hlisted, rfl⟩, hquiet⟩ := hquiet
    have hfound : (s.kernel.findRule r.listed).isSome = true := hrs _ (List.mem_cons_self ..)
    rw [hlisted] at hfound
    obtain ⟨s₁, hs₁, hk₁, hm₁⟩ := updateRule_settled hf hfound action
    obtain ⟨s', hs', hk', hm'⟩ := ih _ hquiet hk
      (by rw [hk₁]; exact fun q hq => hrs q (List.mem_cons_of_mem _ hq))
    exact ⟨s', bind_eq_ok.2 ⟨_, s₁, mapErr_eq_ok.2 hs₁, hs'⟩, hk'.trans hk₁, hm'.trans hm₁⟩

/-- A table that is there. -/
theorem addTable_settled {t : Str} (ht : s.kernel.hasTable t = true) :
    addTable h t s = .ok () { s with queries := s.queries + 1 } := by
  refine bind_eq_ok.2 ⟨true, _, wrapErr_eq_ok.2 (query_eq_ok.2 ⟨hf _, ht.symm, rfl⟩), ?_⟩
  rfl

end Answers

/-! ### A cleanup that finds nothing to delete -/

/-- Everything in the daemon's tables was asked for. -/
structure Unstale (h : Host) (s : State) : Prop where
  messages : s.messages = []
  rules : ∀ r ∈ s.kernel.rules, isManaged r.table = true → hashRule h r.listed ∈ s.rules
  sets : ∀ x ∈ s.kernel.sets, isManaged x.table = true → x.anonymous = false →
    objectKey x.table x.name ∈ s.sets
  chains : ∀ c ∈ s.kernel.chains, isManaged c.table = true →
    objectKey c.table c.name ∈ s.chains ∨ s.kernel.getRules c.table c.name ≠ []

/-- The program only counts its requests and returns `a`. -/
def Passes {α : Type} (h : Host) (k : Kernel) (x : M α) (a : α) : Prop :=
  ∀ s, Unstale h s → s.kernel = k → ∃ s', x s = .ok a s' ∧ Unstale h s' ∧ s'.kernel = k

namespace Passes

variable {h : Host} {k : Kernel} {α β : Type}

theorem pure (a : α) : Passes h k (pure a : M α) a := fun s hs hk => ⟨s, rfl, hs, hk⟩

theorem bind {x : M α} {f : α → M β} {a : α} {b : β} (hx : Passes h k x a)
    (hf : Passes h k (f a) b) : Passes h k (x >>= f) b := by
  intro s hs hk
  obtain ⟨s₁, hs₁, hu₁, hk₁⟩ := hx s hs hk
  obtain ⟨s', hs', hu', hk'⟩ := hf s₁ hu₁ hk₁
  exact ⟨s', bind_eq_ok.2 ⟨a, s₁, hs₁, hs'⟩, hu', hk'⟩

theorem wrapErr {x : M α} {a : α} (hx : Passes h k x a) (c : Str) :
    Passes h k (wrapErr c x) a := by
  intro s hs hk
  obtain ⟨s', hs', hu', hk'⟩ := hx s hs hk
  exact ⟨s', wrapErr_eq_ok.2 hs', hu', hk'⟩

/-- Listings that do not fail. -/
theorem query (hf : ∀ n, h.fault n = false) (f : Kernel → α) :
    Passes h k (Conn.query h f) (f k) := by
  intro s hs hk
  refine ⟨{ s with queries := s.queries + 1 }, query_eq_ok.2 ⟨hf _, by rw [hk], rfl⟩, ?_, hk⟩
  exact ⟨hs.messages, hs.rules, hs.sets, hs.chains⟩

/-- A loop that goes on with what it has. -/
theorem foldlM {f : β → α → M β} {b : β} {l : List α} (hf : ∀ a ∈ l, Passes h k (f b a) b) :
    Passes h k (l.foldlM f b) b := by
  induction l with
  | nil => exact pure b
  | cons a l ih =>
    rw [List.foldlM_cons]
    exact bind (hf a (List.mem_cons_self ..)) (ih fun x hx => hf x (List.mem_cons_of_mem _ hx))

end Passes

section Cleanup

variable {h : Host} (hf : ∀ n, h.fault n = false) {k : Kernel}
include hf

/-- **The cleanup of a table whose rules and sets were all asked for.** -/
theorem passes_cleanupRules {table : Str} (ht : isManaged table = true) :
    Passes h k (cleanupRules h table) () := by
  -- every rule is tracked, so the loop over the rules queues nothing
  have hrule : ∀ c, ∀ r ∈ k.getRules table c, Passes h k (cleanupRule h false r) false := by
    intro c r hr s hs hk
    obtain ⟨x, hx, rfl⟩ := List.mem_map.1 hr
    obtain ⟨hx, hin⟩ := List.mem_filter.1 hx
    have hkey : hashRule h x.listed ∈ s.rules := by
      refine hs.rules x (by rw [hk]; exact hx) ?_
      rw [(Rule.inChain_iff.1 hin).1]
      exact ht
    refine ⟨s, bind_eq_ok.2 ⟨s, s, rfl, ?_⟩, hs, hk⟩
    rw [if_pos (List.contains_iff_mem.2 hkey)]
    rfl
  have hchain : ∀ c, Passes h k (cleanupChainRules h table false c) false := by
    intro c
    unfold cleanupChainRules
    split
    · exact ((Passes.query hf _).wrapErr _).bind (Passes.foldlM (hrule c.name))
    · exact Passes.pure _
  -- and neither does the loop over the sets
  have hset : ∀ x ∈ k.sets.filter fun x => x.table == table,
      Passes h k (cleanupSet false x) false := by
    intro x hx s hs hk
    obtain ⟨hx, hxt⟩ := List.mem_filter.1 hx
    refine ⟨s, bind_eq_ok.2 ⟨s, s, rfl, ?_⟩, hs, hk⟩
    have hkept : ¬ (!s.sets.contains (objectKey x.table x.name) && !x.anonymous) = true := by
      rw [Bool.and_eq_true, Bool.not_eq_true', Bool.not_eq_true', not_and]
      intro hno hanon
      have hmem := hs.sets x (by rw [hk]; exact hx) (by rw [beq_iff_eq.1 hxt]; exact ht) hanon
      rw [List.contains_iff_mem.2 hmem] at hno
      cases hno
    rw [if_neg hkept]
    rfl
  unfold cleanupRules
  refine ((Passes.query hf _).wrapErr _).bind ((Passes.foldlM fun c _ => hchain c).bind ?_)
  refine ((Passes.query hf _).wrapErr _).bind ((Passes.foldlM hset).bind ?_)
  exact Passes.pure _

/-- The cleanup of chains that were all asked for. -/
theorem passes_cleanupChains : Passes h k (cleanupChains h) () := by
  have hchain : ∀ c ∈ k.chains, Passes h k (cleanupChain h false c) false := by
    intro c hc
    unfold cleanupChain
    split
    · rename_i ht
      refine ((Passes.query hf _).wrapErr _).bind fun s hs hk => ?_
      refine ⟨s, bind_eq_ok.2 ⟨s, s, rfl, ?_⟩, hs, hk⟩
      have hmanaged : isManaged c.table = true := by
        rw [isManaged, Bool.or_eq_true, beq_iff_eq, beq_iff_eq]
        exact ht
      have hkept : ¬ (!s.chains.contains (objectKey c.table c.name) &&
          (k.getRules c.table c.name).isEmpty) = true := by
        rw [Bool.and_eq_true, Bool.not_eq_true', List.isEmpty_iff, not_and]
        intro hno hempty
        rcases hs.chains c (by rw [hk]; exact hc) hmanaged with hmem | hrules
        · rw [List.contains_iff_mem.2 hmem] at hno
          cases hno
        · rw [hk] at hrules
          exact hrules hempty
      rw [if_neg hkept]
      rfl
    · exact Passes.pure _
  unfold cleanupChains
  exact ((Passes.query hf _).wrapErr _).bind ((Passes.foldlM hchain).bind (Passes.pure _))

/-- **A cleanup of a ruleset in which everything was asked for commits nothing.** -/
theorem passes_cleanup : Passes h k (cleanup h) () :=
  ((passes_cleanupRules hf (by decide)).wrapErr _).bind
    (((passes_cleanupRules hf (by decide)).wrapErr _).bind ((passes_cleanupChains hf).wrapErr _))

end Cleanup

end MultiNetPolicy
