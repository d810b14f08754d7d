import MultiNetPolicy.Equiv.Names
import MultiNetPolicy.Equiv.Sound

/-!
# Which rules go into which chain

`Emits Q R p` is the rule-by-rule description of a program: every call of an execution satisfies
`Q`, the result satisfies `R`.  It is enough for the chains whose order does not matter; for the
entry chains and the policy chains the calls are listed exactly (`ruleEventsIn`).  `Includes q p`
says that no execution of `p` leaves `q` out.
-/

namespace MultiNetPolicy

open ByteString

namespace Render

variable {α β γ : Type} {Q : Event → Prop}

/-- Every call of an execution satisfies `Q`, and the result satisfies `R`. -/
def Emits (Q : Event → Prop) (R : α → Prop) (p : Render α) : Prop :=
  ∀ es a, Exec p es a → (∀ e ∈ es, Q e) ∧ R a

/-- What the first program returns is known to the second. -/
theorem emits_bind {R : α → Prop} {S : β → Prop} {p : Render α} {f : α → Render β}
    (hp : Emits Q R p) (hf : ∀ a, R a → Emits Q S (f a)) : Emits Q S (p >>= f) := by
  intro es b hex
  obtain ⟨a, es₁, es₂, h₁, h₂, rfl⟩ := exec_bind.1 hex
  obtain ⟨hq₁, hr⟩ := hp es₁ a h₁
  obtain ⟨hq₂, hs⟩ := hf a hr es₂ b h₂
  refine ⟨fun e he => ?_, hs⟩
  rcases List.mem_append.1 he with he | he
  · exact hq₁ e he
  · exact hq₂ e he

/-- The calls of an execution. -/
theorem calls_of_emits {p : Render α} {es : List Event} {a : α} (h : Exec p es a)
    (hp : Emits Q (fun _ => True) p) : ∀ e ∈ es, Q e := (hp es a h).1

theorem emits_pure {R : α → Prop} {a : α} (h : R a) : Emits Q R (pure a) := by
  intro es b hex
  obtain ⟨rfl, rfl⟩ := exec_pure.1 hex
  exact ⟨by simp, h⟩

theorem emits_fail {R : α → Prop} {e : Error} : Emits Q R (fail e) :=
  fun _ _ hex => absurd hex exec_fail

theorem emits_wrapErr {R : α → Prop} {context : Str} {p : Render α} (h : Emits Q R p) :
    Emits Q R (wrapErr context p) := fun es a hex => h es a (exec_wrapErr.1 hex)

theorem emits_ofExcept (e : Except Error α) : Emits Q (fun a => e = .ok a) (ofExcept e) := by
  intro es a hex
  obtain ⟨rfl, rfl⟩ := exec_ofExcept.1 hex
  exact ⟨by simp, rfl⟩

theorem emits_addChain {c : Chain} (h : Q (.chain c.short)) :
    Emits Q (fun x => x = c.short) (addChain c) := by
  intro es x hex
  obtain ⟨rfl, rfl⟩ := exec_addChain.1 hex
  refine ⟨fun e he => ?_, rfl⟩
  rw [List.mem_singleton.1 he]
  exact h

theorem emits_updateSet {s : NftSet} {els : List SetElement}
    (h : ∀ id fresh, Q (.set (s.short id) els fresh)) :
    Emits Q (fun x => ∃ id, x = s.short id) (updateSet s els) := by
  intro es x hex
  obtain ⟨id, fresh, -, rfl, rfl⟩ := exec_updateSet.1 hex
  refine ⟨fun e he => ?_, id, rfl⟩
  rw [List.mem_singleton.1 he]
  exact h id fresh

theorem emits_updateRule {r : Rule} {action : RuleAction} {force : Bool}
    (h : ∀ isNew, Q (.rule r action force isNew)) :
    Emits Q (fun _ => True) (updateRule r action force) := by
  intro es x hex
  obtain rfl := exec_updateRule.1 hex
  refine ⟨fun e he => ?_, trivial⟩
  rw [List.mem_singleton.1 he]
  exact h x

/-- A call whose result is thrown away. -/
theorem emits_updateRule_unit {r : Rule} {action : RuleAction} {force : Bool}
    (h : ∀ isNew, Q (.rule r action force isNew)) :
    Emits Q (fun _ => True) (do let _ ← updateRule r action force) :=
  emits_bind (emits_updateRule h) fun _ _ => emits_pure trivial

theorem emits_when {c : Prop} [Decidable c] {p : Render Unit}
    (h : c → Emits Q (fun _ => True) p) : Emits Q (fun _ => True) (when c p) := by
  unfold when
  split
  · rename_i hc
    exact h hc
  · exact emits_pure trivial

/-- A loop, with the place of each element. -/
theorem emits_forEach_zipIdx {f : Nat → α → Render Unit} : ∀ (l : List α) (i : Nat),
    (∀ x ∈ l.zipIdx i, Emits Q (fun _ => True) (f x.2 x.1)) →
    Emits Q (fun _ => True) (forEach f i l)
  | [], _, _ => emits_pure trivial
  | x :: xs, i, h => by
    rw [List.zipIdx_cons, List.forall_mem_cons] at h
    exact emits_bind h.1 fun _ _ => emits_forEach_zipIdx xs (i + 1) h.2

/-- Loops, with the bound on the index. -/
theorem emits_forEach {f : Nat → α → Render Unit} (l : List α) (i : Nat)
    (h : ∀ j x, j < i + l.length → x ∈ l → Emits Q (fun _ => True) (f j x)) :
    Emits Q (fun _ => True) (forEach f i l) := by
  refine emits_forEach_zipIdx l i fun x hx => ?_
  have hlt := List.snd_lt_of_mem_zipIdx hx
  exact h x.2 x.1 (by omega) (List.fst_mem_of_mem_zipIdx hx)

theorem emits_orLoop {f : α → Render Bool} : ∀ (l : List α),
    (∀ x ∈ l, Emits Q (fun _ => True) (f x)) → Emits Q (fun _ => True) (orLoop f l)
  | [], _ => emits_pure trivial
  | x :: xs, h =>
    emits_bind (h x (List.mem_cons_self ..)) fun _ _ =>
      emits_bind (emits_orLoop xs fun y hy => h y (List.mem_cons_of_mem _ hy)) fun _ _ =>
        emits_pure trivial

/-! ### What an execution goes through -/

/-- Every execution of `p` goes through one of `q`. -/
def Includes (q : Render β) (p : Render α) : Prop :=
  ∀ es a, Exec p es a → ∃ es' b, Exec q es' b ∧ es' ⊆ es

variable {q : Render γ}

theorem includes_refl : Includes q q := fun es a h => ⟨es, a, h, List.Subset.refl es⟩

/-- What the first program goes through. -/
theorem includes_bind_left {p : Render α} {f : α → Render β} (h : Includes q p) :
    Includes q (p >>= f) := by
  intro es b hex
  obtain ⟨a, es₁, es₂, h₁, -, rfl⟩ := exec_bind.1 hex
  obtain ⟨es', c, hq, hsub⟩ := h es₁ a h₁
  exact ⟨es', c, hq, List.subset_append_of_subset_left _ hsub⟩

/-- What the second program goes through, for the values that the first can return. -/
theorem includes_bind_right {R : α → Prop} {p : Render α} {f : α → Render β}
    (hp : Emits (fun _ => True) R p) (h : ∀ a, R a → Includes q (f a)) : Includes q (p >>= f) := by
  intro es b hex
  obtain ⟨a, es₁, es₂, h₁, h₂, rfl⟩ := exec_bind.1 hex
  obtain ⟨es', c, hq, hsub⟩ := h a (hp es₁ a h₁).2 es₂ b h₂
  exact ⟨es', c, hq, List.subset_append_of_subset_right _ hsub⟩

/-- Whatever comes before. -/
theorem includes_bind {p : Render α} {f : α → Render β} (h : ∀ a, Includes q (f a)) :
    Includes q (p >>= f) :=
  includes_bind_right (R := fun _ => True) (fun _ _ _ => ⟨fun _ _ => trivial, trivial⟩)
    fun a _ => h a

theorem includes_wrapErr {context : Str} {p : Render α} (h : Includes q p) :
    Includes q (wrapErr context p) := fun es a hex => h es a (exec_wrapErr.1 hex)

theorem includes_when {c : Prop} [Decidable c] {p : Render Unit} (hc : c) (h : Includes q p) :
    Includes q (when c p) := by
  unfold when
  rw [if_pos hc]
  exact h

/-- A loop goes through what is done for each element. -/
theorem includes_forEach {f : Nat → α → Render Unit} : ∀ {l : List α} {i : Nat} {x : α × Nat},
    x ∈ l.zipIdx i → Includes q (f x.2 x.1) → Includes q (forEach f i l)
  | [], _, _, hx, _ => nomatch hx
  | y :: ys, i, x, hx, h => by
    rw [List.zipIdx_cons, List.mem_cons] at hx
    rcases hx with rfl | hx
    · exact includes_bind_left h
    · exact includes_bind fun _ => includes_forEach hx h

theorem includes_orLoop {f : α → Render Bool} : ∀ {l : List α} {x : α}, x ∈ l →
    Includes q (f x) → Includes q (orLoop f l)
  | [], _, hx, _ => nomatch hx
  | y :: ys, x, hx, h => by
    rcases List.mem_cons.1 hx with rfl | hx
    · exact includes_bind_left h
    · exact includes_bind fun _ => includes_bind_left (includes_orLoop hx h)

end Render

/-- A rule call appends, unforced, a rule that satisfies `P`. -/
def Event.Appends (P : Rule → Prop) : Event → Prop
  | .rule r action force _ => action = .addRule ∧ force = false ∧ P r
  | _ => True

/-! ### Rules of ports and peers chains -/

/-- An expression that neither reads nor changes the mark, nor ends a rule. -/
def Expr.isGuard : Expr → Bool
  | .metaExpr .mark _ _ => false
  | .metaExpr _ true _ => false
  | .verdict _ _ => false
  | _ => true

/-- A rule of a chain of the filter table. -/
def Rule.InFilter (chain : Str) (r : Rule) : Prop := r.table = filterTableName ∧ r.chain = chain

/-- A rule of a ports chain: a condition, then the port mark. -/
def PortsRule (bo : ByteOrder) (r : Rule) : Prop :=
  ∃ g, g.all Expr.isGuard = true ∧ r.exprs = g ++ setMark bo portRuleMark

/-- A rule of a peers chain that sets the peer mark and returns. -/
def PeerRule (bo : ByteOrder) (r : Rule) : Prop :=
  ∃ g, g.all Expr.isGuard = true ∧
    r.exprs = g ++ setMark bo peerRuleMark ++ [.counter, .verdict .ret []]

/-- The rule of a peers chain without peers: it sets the peer mark and goes on. -/
def AllPeersRule (bo : ByteOrder) (r : Rule) : Prop := r.exprs = .counter :: setMark bo peerRuleMark

/-- A rule of a peers chain that drops. -/
def ExceptRule (r : Rule) : Prop :=
  ∃ g, g.all Expr.isGuard = true ∧ r.exprs = g ++ [.verdict .drop []]

/-- Some peer has an `except`. -/
def hasExcept (peers : List MultiNetworkPolicyPeer) : Prop :=
  ∃ peer ∈ peers, ∃ block, peer.ipBlock = some block ∧ block.except ≠ []

/-- A rule of the peers chain for some peers. -/
inductive PeersRule (bo : ByteOrder) (peers : List MultiNetworkPolicyPeer) (r : Rule) : Prop where
  | all (hnone : peers = []) (hr : AllPeersRule bo r)
  | peer (hr : PeerRule bo r)
  | except (hex : hasExcept peers) (hr : ExceptRule r)

/-- A rule of a common chain. -/
def AcceptRule (r : Rule) : Prop :=
  ∃ g, g.all Expr.isGuard = true ∧ r.exprs = g ++ [.verdict .accept []]

/-- A rule that ends in a verdict and leaves the mark alone. -/
def VerdictRule (r : Rule) : Prop :=
  ∃ g kind chain, g.all Expr.isGuard = true ∧ r.exprs = g ++ [.verdict kind chain]

/-- A rule of a base, entry or policy chain. -/
inductive FlowRule (bo : ByteOrder) (r : Rule) : Prop where
  | verdict (hr : VerdictRule r)
  | check (hr : r.exprs = markCheck bo)
  | reset (chainName : Str) (chain : Chain) (policyName : Str) (index : Nat)
      (hr : r = Render.markResetRule bo chainName chain policyName index)

namespace Render

variable {bo : ByteOrder} {deps : PolicyDeps}

section Policy

variable {chainName policyName : Str} {chain : Chain} (ht : chain.table = filterTableName)
include ht

/-- The ports of one protocol are one rule. -/
theorem emits_applyProtoPorts {portsName : Str} {table : Chain} {protocol : Protocol}
    {els : List SetElement} :
    Emits (Event.Appends fun r => r.InFilter chain.name ∧ PortsRule bo r) (fun _ => True)
      (applyProtoPorts bo table portsName chain policyName protocol els) := by
  refine emits_when fun _ => emits_bind (emits_updateSet fun _ _ => trivial) fun set _ => ?_
  refine emits_wrapErr (emits_updateRule_unit fun _ => ⟨rfl, rfl, ⟨ht, rfl⟩, ?_⟩)
  exact ⟨portIn _ set, rfl, rfl⟩

/-- The call is for a rule of a peers chain. -/
abbrev PeersCall (bo : ByteOrder) (chain : Chain) (peers : List MultiNetworkPolicyPeer) :
    Event → Prop :=
  Event.Appends fun r => r.InFilter chain.name ∧ PeersRule bo peers r

theorem peerRule_call {f : AddressFamily} {comment : Str} (set : NftSet)
    {peers : List MultiNetworkPolicyPeer} (isNew : Bool) :
    PeersCall bo chain peers
      (.rule (peerRule bo f chainName chain comment set) .addRule false isNew) :=
  ⟨rfl, rfl, ⟨ht, rfl⟩, .peer ⟨peerIn f chainName set, rfl, rfl⟩⟩

/-- An address block is a rule, with one for its exceptions before it. -/
theorem emits_applyPrefixes {cidr : Str} {index : Nat} {els exceptEls : List SetElement}
    {isV6 : Bool} {peers : List MultiNetworkPolicyPeer} (hex : exceptEls ≠ [] → hasExcept peers) :
    Emits (PeersCall bo chain peers) (fun _ => True)
      (applyPrefixes bo chainName chain policyName cidr index els exceptEls isV6) := by
  refine emits_when fun _ => emits_bind (emits_when fun hlen => ?_) fun _ _ => ?_
  · refine emits_bind (emits_wrapErr (emits_updateSet fun _ _ => trivial)) fun set _ => ?_
    refine emits_updateRule_unit fun _ => ⟨rfl, rfl, ⟨ht, rfl⟩, .except (hex ?_) ?_⟩
    · exact List.ne_nil_of_length_pos hlen
    · refine ⟨peerIn (addressFamily isV6) chainName set ++ [.counter], rfl, ?_⟩
      rw [List.append_assoc]
      rfl
  · refine emits_bind (emits_wrapErr (emits_updateSet fun _ _ => trivial)) fun set _ => ?_
    exact emits_updateRule_unit fun isNew => peerRule_call ht set isNew

/-- Both families of a block. -/
theorem emits_applyPolicyPeersRulesIPBlock {block : IPBlock} {index : Nat}
    {peers : List MultiNetworkPolicyPeer} (hex : block.except ≠ [] → hasExcept peers) :
    Emits (PeersCall bo chain peers) (fun _ => True)
      (applyPolicyPeersRulesIPBlock bo chainName chain policyName block index) := by
  refine emits_bind (emits_wrapErr (emits_ofExcept _)) fun exceptEls hels => ?_
  -- no elements without an entry
  have hnone : exceptEls.1 ≠ [] ∨ exceptEls.2 ≠ [] → hasExcept peers := by
    intro hne
    refine hex fun hnil => ?_
    rw [hnil] at hels
    cases hels
    simp at hne
  refine emits_bind (emits_wrapErr (emits_ofExcept _)) fun els _ => ?_
  exact emits_bind (emits_wrapErr (emits_applyPrefixes ht fun h => hnone (.inl h))) fun _ _ =>
    emits_wrapErr (emits_applyPrefixes ht fun h => hnone (.inr h))

/-- The addresses of a selector are one rule. -/
theorem emits_addIPRule {addrs : List Str} {peer : MultiNetworkPolicyPeer} {index : Nat}
    {peers : List MultiNetworkPolicyPeer} :
    Emits (PeersCall bo chain peers) (fun _ => True)
      (addIPRule bo chainName addrs chain policyName peer index) := by
  cases addrs with
  | nil => exact emits_pure trivial
  | cons addr addrs =>
    refine emits_bind (emits_updateSet fun _ _ => trivial) fun set _ => ?_
    exact emits_updateRule_unit fun isNew => peerRule_call ht set isNew

/-- The rules of one peer. -/
theorem emits_applyPolicyPeer {podInfo : PodInfo} {networks : List Str} {index : Nat}
    {peer : MultiNetworkPolicyPeer} {peers : List MultiNetworkPolicyPeer} (hpeer : peer ∈ peers) :
    Emits (PeersCall bo chain peers) (fun _ => True)
      (applyPolicyPeer bo deps chainName chain policyName podInfo networks index peer) := by
  unfold applyPolicyPeer
  split
  · rename_i block hblock
    exact emits_wrapErr (emits_applyPolicyPeersRulesIPBlock ht fun hne =>
      ⟨peer, hpeer, block, hblock, hne⟩)
  · split
    · refine emits_wrapErr (emits_bind (emits_wrapErr (emits_ofExcept _)) fun _ _ => ?_)
      refine emits_bind (emits_wrapErr (emits_ofExcept _)) fun _ _ => ?_
      refine emits_bind (emits_wrapErr (emits_ofExcept _)) fun _ _ => ?_
      refine emits_wrapErr (emits_bind (emits_ofExcept _) fun _ _ => ?_)
      exact emits_bind (emits_wrapErr (emits_addIPRule ht)) fun _ _ =>
        emits_wrapErr (emits_addIPRule ht)
    · exact emits_fail

end Policy

/-! ### The calls of a policy rule -/

/-- The ports chain of a rule, as `addChain` returns it. -/
def portsChainOf (chainName : Str) (index : Nat) : Chain :=
  ⟨filterTableName, shortName (portsChainName chainName index), none⟩

/-- The peers chain of a rule, as `addChain` returns it. -/
def peersChainOf (chainName : Str) (index : Nat) : Chain :=
  ⟨filterTableName, shortName (peersChainName chainName index), none⟩

section Policy

variable {chainName policyName : Str} {chain : Chain} {es : List Event} {u : Unit}
  (ht : chain.table = filterTableName)
include ht

/-- The jump to the ports chain, then rules of that chain. -/
theorem exec_applyPolicyPortsRules {ports : List MultiNetworkPolicyPort} {index : Nat}
    (h : Exec (applyPolicyPortsRules bo chainName chain policyName ports index) es u) :
    ∃ isNew rest, es = .chain (portsChainOf chainName index) ::
        .rule (policyJumpRule chainName chain policyName (portsChainOf chainName index)) .addRule
          false isNew :: rest ∧
      ∀ e ∈ rest, Event.Appends
        (fun r => r.InFilter (portsChainOf chainName index).name ∧ PortsRule bo r) e := by
  unfold applyPolicyPortsRules at h
  rw [exec_bind] at h
  obtain ⟨portChain, es₁, es₂, h₁, h₂, rfl⟩ := h
  rw [exec_wrapErr, exec_addChain] at h₁
  obtain ⟨hchain, rfl⟩ := h₁
  have hshort : Chain.short ⟨chain.table, portsChainName chainName index, none⟩ =
      portsChainOf chainName index := by
    rw [Chain.short, ht]
    rfl
  rw [hshort] at hchain ⊢
  subst hchain
  rw [exec_bind] at h₂
  obtain ⟨isNew, es₁, rest, h₁, h₂, rfl⟩ := h₂
  obtain rfl := exec_updateRule.1 h₁
  refine ⟨isNew, rest, rfl, ?_⟩
  -- behind the chain and its jump everything is about the ports chain
  refine calls_of_emits h₂ (emits_bind (emits_ofExcept (collectPorts ports)) fun els _ => ?_)
  exact emits_bind (emits_applyProtoPorts rfl) fun _ _ =>
    emits_bind (emits_applyProtoPorts rfl) fun _ _ =>
    emits_bind (emits_applyProtoPorts rfl) fun _ _ =>
    emits_when fun _ => emits_updateRule_unit fun _ => ⟨rfl, rfl, ⟨rfl, rfl⟩, [.counter], rfl, rfl⟩

/-- The jump to the peers chain, then rules of that chain. -/
theorem exec_applyPolicyPeersRules {peers : List MultiNetworkPolicyPeer} {podInfo : PodInfo}
    {networks : List Str} {index : Nat}
    (h : Exec (applyPolicyPeersRules bo deps chainName chain policyName peers podInfo
      networks index)
      es u) :
    ∃ isNew rest, es = .chain (peersChainOf chainName index) ::
        .rule (policyJumpRule chainName chain policyName (peersChainOf chainName index)) .addRule
          false isNew :: rest ∧
      ∀ e ∈ rest, PeersCall bo (peersChainOf chainName index) peers e := by
  unfold applyPolicyPeersRules at h
  rw [exec_bind] at h
  obtain ⟨peersChain, es₁, es₂, h₁, h₂, rfl⟩ := h
  rw [exec_wrapErr, exec_addChain] at h₁
  obtain ⟨hchain, rfl⟩ := h₁
  have hshort : Chain.short ⟨chain.table, peersChainName chainName index, none⟩ =
      peersChainOf chainName index := by
    rw [Chain.short, ht]
    rfl
  rw [hshort] at hchain ⊢
  subst hchain
  rw [exec_bind] at h₂
  obtain ⟨isNew, es₁, rest, h₁, h₂, rfl⟩ := h₂
  obtain rfl := exec_updateRule.1 h₁
  refine ⟨isNew, rest, rfl, ?_⟩
  -- behind the chain and its jump everything is about the peers chain
  refine calls_of_emits h₂ (emits_bind (emits_forEach peers 0 fun j peer _ hpeer =>
    emits_applyPolicyPeer rfl hpeer) fun _ _ => ?_)
  exact emits_when fun hnone => emits_updateRule_unit fun _ =>
    ⟨rfl, rfl, ⟨rfl, rfl⟩, .all (List.length_eq_zero_iff.1 hnone) rfl⟩

/-- The rules of a policy chain for one rule of the policy. -/
def blockRules (bo : ByteOrder) (chainName : Str) (chain : Chain) (policyName resetName : Str)
    (index : Nat) : List Rule :=
  [markResetRule bo chainName chain resetName index,
    policyJumpRule chainName chain policyName (portsChainOf chainName index),
    policyJumpRule chainName chain policyName (peersChainOf chainName index),
    markCheckRule bo chainName chain policyName index]

/-- The four rules of the block, with the rules of the ports and peers chains between them. -/
theorem exec_applyPolicyRule {podInfo : PodInfo} {networks : List Str} {resetName direction : Str}
    {index : Nat} {rule : PolicyRule}
    (h : Exec (applyPolicyRule bo deps chainName chain podInfo networks policyName resetName
      direction index rule) es u) :
    ∃ b₀ b₁ b₂ b₃ rest₁ rest₂, es =
        .rule (markResetRule bo chainName chain resetName index) .addRule false b₀ ::
        .chain (portsChainOf chainName index) ::
        .rule (policyJumpRule chainName chain policyName (portsChainOf chainName index)) .addRule
          false b₁ :: (rest₁ ++ .chain (peersChainOf chainName index) ::
        .rule (policyJumpRule chainName chain policyName (peersChainOf chainName index)) .addRule
          false b₂ :: (rest₂ ++
        [.rule (markCheckRule bo chainName chain policyName index) .addRule false b₃])) ∧
      (∀ e ∈ rest₁, Event.Appends
        (fun r => r.InFilter (portsChainOf chainName index).name ∧ PortsRule bo r) e) ∧
      ∀ e ∈ rest₂, PeersCall bo (peersChainOf chainName index) rule.peers e := by
  simp only [applyPolicyRule, applyMarkReset, applyMarkCheck, exec_bind, exec_wrapErr,
    exec_updateRule, exec_pure] at h
  obtain ⟨_, _, _, ⟨b₀, _, _, rfl, ⟨-, rfl⟩, rfl⟩, ⟨_, es₁, _, h₁, ⟨_, es₂, _, h₂,
    ⟨b₃, _, _, rfl, ⟨-, rfl⟩, rfl⟩, rfl⟩, rfl⟩, rfl⟩ := h
  obtain ⟨b₁, rest₁, rfl, hrest₁⟩ := exec_applyPolicyPortsRules ht h₁
  obtain ⟨b₂, rest₂, rfl, hrest₂⟩ := exec_applyPolicyPeersRules ht h₂
  exact ⟨b₀, b₁, b₂, b₃, rest₁, rest₂, by simp, hrest₁, hrest₂⟩

end Policy

end Render

/-! ### Calls for one chain -/

/-- The call is for a rule of a chain. -/
def Event.inChain (t c : Str) : Event → Bool
  | .rule r _ _ _ => r.inChain t c
  | _ => false

/-- The rule calls for one chain. -/
def callsIn (t c : Str) (es : List Event) : List Event := es.filter (Event.inChain t c)

@[simp] theorem callsIn_append (t c : Str) (es₁ es₂ : List Event) :
    callsIn t c (es₁ ++ es₂) = callsIn t c es₁ ++ callsIn t c es₂ := List.filter_append ..

/-- No calls for other chains. -/
theorem callsIn_eq_nil {t c : Str} {es : List Event} (h : ∀ e ∈ es, e.inChain t c = false) :
    callsIn t c es = [] := by
  unfold callsIn
  rw [List.filter_eq_nil_iff]
  intro e he
  rw [h e he]
  exact Bool.false_ne_true

theorem callsIn_flatten {t c : Str} : ∀ ess : List (List Event),
    callsIn t c ess.flatten = (ess.map (callsIn t c)).flatten
  | [] => rfl
  | es :: ess => by rw [List.flatten_cons, callsIn_append, callsIn_flatten ess]; rfl

/-- A call for the chain. -/
theorem callsIn_cons_rule {c : Str} {r : Rule} {action : RuleAction} {force isNew : Bool}
    {es : List Event} (hr : r.InFilter c) :
    callsIn filterTableName c (.rule r action force isNew :: es) =
      .rule r action force isNew :: callsIn filterTableName c es :=
  List.filter_cons_of_pos (Rule.inChain_iff.2 hr)

theorem callsIn_cons_chain {t c : Str} {x : Chain} {es : List Event} :
    callsIn t c (.chain x :: es) = callsIn t c es :=
  List.filter_cons_of_neg Bool.false_ne_true

/-- The rule calls are for rules that satisfy `P`. -/
def Event.Calls (P : Rule → Prop) : Event → Prop
  | .rule r _ _ _ => P r
  | _ => True

/-- Rules of other chains. -/
theorem Event.Calls.inChain_eq_false {P : Rule → Prop} {e : Event} (he : e.Calls P) {t c : Str}
    (h : ∀ r, P r → r.inChain t c = false) : e.inChain t c = false := by
  cases e with
  | rule r action force isNew => exact h r he
  | chain c => rfl
  | set s els fresh => rfl

theorem Event.Appends.calls {P : Rule → Prop} {e : Event} (he : e.Appends P) : e.Calls P := by
  cases e with
  | rule r action force isNew => exact he.2.2
  | chain c => trivial
  | set s els fresh => trivial

theorem Event.Calls.mono {P P' : Rule → Prop} {e : Event} (he : e.Calls P) (h : ∀ r, P r → P' r) :
    e.Calls P' := by
  cases e with
  | rule r action force isNew => exact h r he
  | chain c => trivial
  | set s els fresh => trivial

/-- A rule is in one chain. -/
theorem Rule.InFilter.inChain_eq_false {r : Rule} {c c' : Str} (hr : r.InFilter c) (hne : c ≠ c') :
    r.inChain filterTableName c' = false := by
  rw [Bool.eq_false_iff]
  intro h
  exact hne (hr.2.symm.trans (Rule.inChain_iff.1 h).2)

/-- What the kernel answers to each rule. -/
def Answers (ans : Rule → Bool) (es : List Event) : Prop :=
  ∀ r action force isNew, .rule r action force isNew ∈ es → isNew = ans r

/-- Answers of two executions. -/
theorem Answers.append_iff {ans : Rule → Bool} {es₁ es₂ : List Event} :
    Answers ans (es₁ ++ es₂) ↔ Answers ans es₁ ∧ Answers ans es₂ := by
  unfold Answers
  simp only [List.mem_append]
  constructor
  · intro h
    exact ⟨fun r a f b hm => h r a f b (.inl hm), fun r a f b hm => h r a f b (.inr hm)⟩
  · rintro ⟨h₁, h₂⟩ r a f b (hm | hm)
    · exact h₁ r a f b hm
    · exact h₂ r a f b hm

/-- The calls that append some rules, one after the other. -/
def appendCalls (ans : Rule → Bool) (rs : List Rule) : List Event :=
  rs.map fun r => .rule r .addRule false (ans r)

theorem appendCalls_append (ans : Rule → Bool) (rs₁ rs₂ : List Rule) :
    appendCalls ans (rs₁ ++ rs₂) = appendCalls ans rs₁ ++ appendCalls ans rs₂ := List.map_append

end MultiNetPolicy
