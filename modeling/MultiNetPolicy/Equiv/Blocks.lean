import MultiNetPolicy.Equiv.Comments
import MultiNetPolicy.Equiv.Entry

/-!
# Policy chains over histories

The chain of a policy is a list of blocks, one for each rule of the policy.  When the policy gets
more or fewer rules, the blocks at the end come or go.  The mark resets and the mark checks of
different blocks differ in their comment only.  A comment that is cut could lose the index that
tells the blocks apart (`CommentsTell`), but the kernel refuses the user data of such a comment, so
that no successful run has one.

* `BlocksInOrder`: the chains of the policies of a run are exactly their blocks.
* `Ran.blocksInOrder_iff`: what a run needs to keep it, whatever the kernel refuses.
* `blocks_in_order_of_runs`: it holds in every history on kernels that refuse long user data.
-/

namespace MultiNetPolicy

open ByteString Reconcile

/-! ### Policies of a run -/

/-- What identifies a policy. -/
def MultiNetworkPolicy.key (p : MultiNetworkPolicy) : Str × Str := (p.namespace, p.name)

/-- What applies is the policy itself. -/
theorem applicable_policy {pod : Pod} {podInfo : PodInfo} {policy : MultiNetworkPolicy}
    {p : InternalPolicy} (h : applicable pod podInfo policy = some p) : p.policy = policy := by
  unfold applicable at h
  split at h
  · split at h
    · cases h
    · simp only [Option.ite_none_right_eq_some, Option.some.injEq] at h
      rw [← h.2]
  · cases h

/-- Applied policies are policies of the map. -/
theorem Input.mem_policies_of_mem_policiesIn {i : Input} {d : Direction} {p : InternalPolicy}
    (hp : p ∈ i.policiesIn d) : p.policy ∈ i.policyMap.policies := by
  have happ : p ∈ i.applicablePolicies := by
    cases d with
    | ingress => exact List.mem_of_mem_filter ((List.mem_insertionSort _).1 hp)
    | egress => exact List.mem_of_mem_filter ((List.mem_insertionSort _).1 hp)
  obtain ⟨policy, hpolicy, happ⟩ := List.mem_filterMap.1 happ
  rw [applicable_policy happ]
  exact hpolicy

/-- Applied policies have different names. -/
theorem Input.applicablePolicies_keys_nodup (i : Input) :
    (i.applicablePolicies.map fun p => p.policy.key).Nodup := by
  have hsub : ∀ l : List MultiNetworkPolicy,
      ((l.filterMap (applicable i.pod i.sortedInfo)).map fun p => p.policy.key).Sublist
        (l.map MultiNetworkPolicy.key) := by
    intro l
    induction l with
    | nil => exact .slnil
    | cons policy l ih =>
      rw [List.filterMap_cons]
      cases happ : applicable i.pod i.sortedInfo policy with
      | none => exact ih.cons _
      | some p =>
        rw [List.map_cons, applicable_policy happ]
        exact ih.cons_cons _
  exact (hsub i.policyMap.policies).nodup i.policyMap.keys_nodup

/-- No two policies of a direction have the same name. -/
theorem Input.policiesIn_keys_nodup (i : Input) (d : Direction) :
    ((i.policiesIn d).map fun p => p.policy.key).Nodup := by
  have hsorted : ∀ f : InternalPolicy → Bool,
      (((i.applicablePolicies.filter f).insertionSort compareInternalPolicy).map
        fun p => p.policy.key).Nodup := by
    intro f
    rw [((List.perm_insertionSort _ _).map _).nodup_iff]
    exact (List.filter_sublist.map _).nodup i.applicablePolicies_keys_nodup
  cases d with
  | ingress => exact hsorted _
  | egress => exact hsorted _

/-- Names of chains depend on the name of the policy alone. -/
theorem chainNameOf_congr {p q : MultiNetworkPolicy} (h : p.key = q.key) (d : Direction)
    (role : ChainRole) : chainNameOf d p role = chainNameOf d q role := by
  have hrule : policyRuleNamespacedName p = policyRuleNamespacedName q := by
    unfold policyRuleNamespacedName
    rw [show p.namespace = q.namespace from congrArg Prod.fst h,
      show p.name = q.name from congrArg Prod.snd h]
  have hfull : policyChainFullName d.entry p = policyChainFullName d.entry q := by
    unfold policyChainFullName
    rw [hrule]
  unfold chainNameOf
  cases role <;> simp only [chainFullName, hfull]

/-- So do the blocks. -/
theorem policyBlock_congr {p q : MultiNetworkPolicy} (h : p.key = q.key) (bo : ByteOrder)
    (d : Direction) (index : Nat) : policyBlock bo d p index = policyBlock bo d q index := by
  have hns : p.namespace = q.namespace := congrArg Prod.fst h
  have hname : p.name = q.name := congrArg Prod.snd h
  unfold policyBlock policyChainOf policyChainFullName policyRuleNamespacedName policyNamespacedName
    Direction.resetName policyNamespacedName
  rw [hns, hname]

theorem policyRules_eq_blocks (bo : ByteOrder) (d : Direction) (p : MultiNetworkPolicy) :
    policyRules bo d p = blocks (policyBlock bo d p) (p.rulesIn d).length := policyRules_eq bo d p

/-! ### Names over a history -/

/-- Chains of the same name are the same chain of the same policy, whichever runs of the history the
two policies are of. -/
def ChainsApart (ps : List MultiNetworkPolicy) : Prop :=
  ∀ d d' : Direction, ∀ p ∈ ps, p.isFor d = true → ∀ p' ∈ ps, p'.isFor d' = true →
    ∀ role ∈ rolesBelow (p.rulesIn d).length, ∀ role' ∈ rolesBelow (p'.rulesIn d').length,
      chainNameOf d p role = chainNameOf d' p' role' → d = d' ∧ p.key = p'.key ∧ role = role'

instance (ps : List MultiNetworkPolicy) : Decidable (ChainsApart ps) :=
  inferInstanceAs (Decidable (∀ d d' : Direction, ∀ p ∈ ps, p.isFor d = true → ∀ p' ∈ ps,
    p'.isFor d' = true → ∀ role ∈ rolesBelow (p.rulesIn d).length,
      ∀ role' ∈ rolesBelow (p'.rulesIn d').length,
        chainNameOf d p role = chainNameOf d' p' role' → d = d' ∧ p.key = p'.key ∧ role = role'))

/-- A run with policies of the history, whose keys tell its rules. -/
structure Known (ps : List MultiNetworkPolicy) (h : Host) (i : Input) (k : Kernel) (s : State) :
    Prop where
  keys : KeysTell h k s
  policies : ∀ d, ∀ p ∈ i.policiesIn d, p.policy ∈ ps

/-- The chains of a policy are listed once. -/
theorem rolesBelow_nodup (n : Nat) : (rolesBelow n).Nodup := by
  unfold rolesBelow
  rw [List.nodup_cons]
  constructor
  · simp
  · rw [List.nodup_flatMap]
    refine ⟨fun i _ => by simp, List.nodup_range.pairwise_of_forall_ne fun i _ j _ hij => ?_⟩
    simp [List.disjoint_left, Function.onFun, hij]

section Names

variable {ps : List MultiNetworkPolicy} {i : Input}

/-- The chain names of a run are distinct. -/
theorem ChainsApart.nodup (hps : ChainsApart ps)
    (hknown : ∀ d, ∀ p ∈ i.policiesIn d, p.policy ∈ ps) : i.chainNames.Nodup := by
  -- a shared name is one of a single policy in a single direction
  have hshared : ∀ {d d' : Direction} {p p' : InternalPolicy} {c : Str}, p ∈ i.policiesIn d →
      p' ∈ i.policiesIn d' → c ∈ policyChainNames d p.policy → c ∈ policyChainNames d' p'.policy →
      d = d' ∧ p.policy.key = p'.policy.key := by
    intro d d' p p' c hp hp' hc hc'
    obtain ⟨role, hrole, rfl⟩ := List.mem_map.1 hc
    obtain ⟨role', hrole', heq⟩ := List.mem_map.1 hc'
    obtain ⟨hd, hkey, -⟩ := hps d d' _ (hknown d p hp) (Input.isFor_of_mem_policiesIn hp) _
      (hknown d' p' hp') (Input.isFor_of_mem_policiesIn hp') role hrole role' hrole' heq.symm
    exact ⟨hd, hkey⟩
  unfold Input.chainNames
  rw [List.nodup_flatMap]
  constructor
  · intro d _
    rw [List.nodup_flatMap]
    constructor
    · intro p hp
      refine List.Nodup.map_on ?_ (rolesBelow_nodup _)
      intro role hrole role' hrole' heq
      have hfor := Input.isFor_of_mem_policiesIn hp
      exact (hps d d _ (hknown d p hp) hfor _ (hknown d p hp) hfor role hrole role' hrole' heq).2.2
    · have hkeys := i.policiesIn_keys_nodup d
      rw [List.Nodup, List.pairwise_map] at hkeys
      refine hkeys.imp_of_mem fun {p p'} hp hp' hne => ?_
      intro c hc hc'
      exact hne (hshared hp hp' hc hc').2
  · rw [List.pairwise_pair]
    intro c hc hc'
    obtain ⟨p, hp, hc⟩ := List.mem_flatMap.1 hc
    obtain ⟨p', hp', hc'⟩ := List.mem_flatMap.1 hc'
    cases (hshared hp hp' hc hc').1

/-- The chain of a policy that a run does not apply is not asked for. -/
theorem callsIn_policy_eq_nil {bo : ByteOrder} {es : List Event} {ans : Rule → Bool} {u : Unit}
    (hps : ChainsApart ps) (hknown : ∀ d, ∀ p ∈ i.policiesIn d, p.policy ∈ ps)
    (hexec : Render.Exec (Render.renderInput bo i) es u) (hans : Answers ans es) {d : Direction}
    {p : MultiNetworkPolicy} (hp : p ∈ ps) (hfor : p.isFor d = true)
    (hnone : ∀ q ∈ i.policiesIn d, q.policy.key ≠ p.key) :
    callsIn filterTableName (chainNameOf d p .policy) es = [] := by
  have hbase := chainNameOf_not_base d p .policy
  refine callsIn_eq_nil fun e he =>
    (Render.calls_renderInput hexec hans e he).inChain_eq_false fun r hr => ?_
  rw [Bool.eq_false_iff]
  intro hin
  obtain ⟨-, hc⟩ := Rule.inChain_iff.1 hin
  rw [← hc] at hbase
  obtain ⟨d', q, hq, hr⟩ := hr.exists_policy hbase
  obtain ⟨c, hmem, hrc⟩ := hr.mem_names
  obtain ⟨role, hrole, rfl⟩ := List.mem_map.1 hmem
  obtain ⟨rfl, hkey, -⟩ := hps d' d _ (hknown d' q hq) (Input.isFor_of_mem_policiesIn hq) p hp hfor
    role hrole .policy (mem_rolesBelow.2 trivial) (hrc.2.symm.trans hc)
  exact hnone q hq hkey

end Names

/-! ### Blocks that share rules -/

/-- The comment of the mark reset of a block, as it is stored. -/
def resetUserData (bo : ByteOrder) (d : Direction) (p : MultiNetworkPolicy) (index : Nat) : Str :=
  (Render.markResetRule bo (policyChainFullName d.entry p) (policyChainOf d.entry p)
    (d.resetName p) index).userData

/-- The comment of the mark check of a block, as it is stored. -/
def checkUserData (bo : ByteOrder) (d : Direction) (p : MultiNetworkPolicy) (index : Nat) : Str :=
  (Render.markCheckRule bo (policyChainFullName d.entry p) (policyChainOf d.entry p)
    (policyNamespacedName p) index).userData

/-- The rules of a block: the kinds have different lengths. -/
theorem kind_of_mem_policyBlock {bo : ByteOrder} {d : Direction} {p : MultiNetworkPolicy}
    {index : Nat} {x : Rule} (hx : x ∈ policyBlock bo d p index) :
    (x.exprs.length = 4 ∧ x.userData = resetUserData bo d p index) ∨
    (x.exprs.length = 5 ∧ x.userData = checkUserData bo d p index) ∨
    ∃ role, (role = .ports index ∨ role = .peers index) ∧
      x.exprs = [.counter, .verdict .jump (chainNameOf d p role)] := by
  simp only [policyBlock, Render.blockRules, List.mem_cons, List.not_mem_nil, or_false] at hx
  rcases hx with rfl | rfl | rfl | rfl
  · exact .inl ⟨rfl, rfl⟩
  · refine .inr (.inr ⟨.ports index, .inl rfl, ?_⟩)
    rw [← portsChainOf_name]
    rfl
  · refine .inr (.inr ⟨.peers index, .inr rfl, ?_⟩)
    rw [← peersChainOf_name]
    rfl
  · exact .inr (.inl ⟨rfl, rfl⟩)

/-- Two blocks share a rule exactly when one of the two comments is the same. -/
theorem policyBlock_disjoint_iff {bo : ByteOrder} {d : Direction} {p : MultiNetworkPolicy}
    {n a b : Nat} (ha : a < n) (hb : b < n) (hab : a ≠ b)
    (hinj : ∀ role ∈ rolesBelow n, ∀ role' ∈ rolesBelow n,
      chainNameOf d p role = chainNameOf d p role' → role = role') :
    (∀ x ∈ policyBlock bo d p b, x ∉ policyBlock bo d p a) ↔
      resetUserData bo d p a ≠ resetUserData bo d p b ∧
        checkUserData bo d p a ≠ checkUserData bo d p b := by
  constructor
  · intro hdisj
    constructor
    · intro heq
      refine hdisj _ (List.mem_cons_self ..) ?_
      -- with equal comments the two resets are one rule
      have hsame : Render.markResetRule bo (policyChainFullName d.entry p)
          (policyChainOf d.entry p) (d.resetName p) b = Render.markResetRule bo
          (policyChainFullName d.entry p) (policyChainOf d.entry p) (d.resetName p) a := by
        unfold Render.markResetRule newRule
        rw [Rule.mk.injEq]
        exact ⟨rfl, rfl, rfl, heq.symm, rfl⟩
      rw [hsame]
      exact List.mem_cons_self ..
    · intro heq
      refine hdisj _ (.tail _ (.tail _ (.tail _ (.head _)))) ?_
      have hsame : Render.markCheckRule bo (policyChainFullName d.entry p)
          (policyChainOf d.entry p) (policyNamespacedName p) b = Render.markCheckRule bo
          (policyChainFullName d.entry p) (policyChainOf d.entry p) (policyNamespacedName p) a := by
        unfold Render.markCheckRule newRule
        rw [Rule.mk.injEq]
        exact ⟨rfl, rfl, rfl, heq.symm, rfl⟩
      rw [hsame]
      exact .tail _ (.tail _ (.tail _ (.head _)))
  · rintro ⟨hreset, hcheck⟩ x hxb hxa
    have hroles : ∀ {c : Nat} {role : ChainRole}, c < n → role = .ports c ∨ role = .peers c →
        role ∈ rolesBelow n := by
      rintro c role hc (rfl | rfl)
      · exact mem_rolesBelow.2 hc
      · exact mem_rolesBelow.2 hc
    -- a rule of both blocks is of the same kind in both
    rcases kind_of_mem_policyBlock hxb with ⟨hlb, hub⟩ | ⟨hlb, hub⟩ | ⟨role, hrole, hxb⟩
    · rcases kind_of_mem_policyBlock hxa with ⟨-, hua⟩ | ⟨hla, -⟩ | ⟨_, -, hxa⟩
      · exact hreset (hua.symm.trans hub)
      · omega
      · rw [hxa] at hlb
        cases hlb
    · rcases kind_of_mem_policyBlock hxa with ⟨hla, -⟩ | ⟨-, hua⟩ | ⟨_, -, hxa⟩
      · omega
      · exact hcheck (hua.symm.trans hub)
      · rw [hxa] at hlb
        cases hlb
    · rcases kind_of_mem_policyBlock hxa with ⟨hla, -⟩ | ⟨hla, -⟩ | ⟨role', hrole', hxa⟩
      · rw [hxb] at hla
        cases hla
      · rw [hxb] at hla
        cases hla
      · -- jumps to the same chain are of the same block
        rw [hxb] at hxa
        simp only [List.cons.injEq, Expr.verdict.injEq, true_and, and_true] at hxa
        have heq := hinj role (hroles hb hrole) role' (hroles ha hrole') hxa
        rcases hrole with rfl | rfl <;> rcases hrole' with rfl | rfl
        · exact hab (ChainRole.ports.inj heq).symm
        · cases heq
        · cases heq
        · exact hab (ChainRole.peers.inj heq).symm

/-! ### The property and its condition -/

/-- The chain of every policy of a run consists of the blocks of its rules, in their order. -/
def BlocksInOrder (bo : ByteOrder) (i : Input) (k : Kernel) : Prop :=
  ∀ d, ∀ p ∈ i.policiesIn d,
    k.chainRules filterTableName (chainNameOf d p.policy .policy) = policyRules bo d p.policy

instance (bo : ByteOrder) (i : Input) (k : Kernel) : Decidable (BlocksInOrder bo i k) :=
  inferInstanceAs (Decidable (∀ d, ∀ p ∈ i.policiesIn d,
    k.chainRules filterTableName (chainNameOf d p.policy .policy) = policyRules bo d p.policy))

/-- The comments of the blocks that come or go differ from those of the blocks that stay. -/
def CommentsTell (bo : ByteOrder) (d : Direction) (p : MultiNetworkPolicy) (m n : Nat) : Prop :=
  ∀ a < min m n, ∀ b < max m n, min m n ≤ b →
    resetUserData bo d p a ≠ resetUserData bo d p b ∧
      checkUserData bo d p a ≠ checkUserData bo d p b

instance (bo : ByteOrder) (d : Direction) (p : MultiNetworkPolicy) (m n : Nat) :
    Decidable (CommentsTell bo d p m n) :=
  inferInstanceAs (Decidable (∀ a < min m n, ∀ b < max m n, min m n ≤ b →
    resetUserData bo d p a ≠ resetUserData bo d p b ∧
      checkUserData bo d p a ≠ checkUserData bo d p b))

/-- The number of blocks in the chain of a policy; a block has four rules. -/
def Kernel.blockCount (k : Kernel) (d : Direction) (p : MultiNetworkPolicy) : Nat :=
  (k.chainRules filterTableName (chainNameOf d p .policy)).length / 4

/-- No policy of a run changes the number of its rules across a cut comment. -/
def BlocksTell (bo : ByteOrder) (i : Input) (k : Kernel) : Prop :=
  ∀ d, ∀ p ∈ i.policiesIn d,
    CommentsTell bo d p.policy (k.blockCount d p.policy) (p.policy.rulesIn d).length

instance (bo : ByteOrder) (i : Input) (k : Kernel) : Decidable (BlocksTell bo i k) :=
  inferInstanceAs (Decidable (∀ d, ∀ p ∈ i.policiesIn d,
    CommentsTell bo d p.policy (k.blockCount d p.policy) (p.policy.rulesIn d).length))

/-! ### Histories -/

/-- The chain of every policy of the history is a number of its blocks, as many as some version of
the policy has rules. -/
def BlocksInv (bo : ByteOrder) (ps : List MultiNetworkPolicy) (k : Kernel) : Prop :=
  ∀ d : Direction, ∀ p ∈ ps, p.isFor d = true → ∃ m,
    k.chainRules filterTableName (chainNameOf d p .policy) = blocks (policyBlock bo d p) m ∧
      (m = 0 ∨ ∃ p₀ ∈ ps, p₀.isFor d = true ∧ p₀.key = p.key ∧ (p₀.rulesIn d).length = m)

/-- A block has four rules. -/
theorem length_blocks_policyBlock (bo : ByteOrder) (d : Direction) (p : MultiNetworkPolicy)
    (m : Nat) : (blocks (policyBlock bo d p) m).length = 4 * m := by
  have hfour : ∀ index, (policyBlock bo d p index).length = 4 := fun _ => rfl
  unfold blocks
  rw [List.length_flatMap]
  simp only [hfour, List.map_const', List.sum_replicate, List.length_range, smul_eq_mul]
  omega

section Histories

variable {ps : List MultiNetworkPolicy} {bo : ByteOrder} {h : Host} {i : Input} {k : Kernel}
  {s : State} {es : List Event} {d : Direction} {last : Option Input}

/-- The rules of the chain of a policy are in place exactly when the comments tell its blocks. -/
theorem Ran.blocks_iff (hr : Ran h i k s es) (hps : ChainsApart ps) (hknown : Known ps h i k s)
    (hinv : BlocksInv h.byteOrder ps k) {p : InternalPolicy} (hp : p ∈ i.policiesIn d) :
    s.kernel.chainRules filterTableName (chainNameOf d p.policy .policy) =
      policyRules h.byteOrder d p.policy ↔
    CommentsTell h.byteOrder d p.policy (k.blockCount d p.policy) (p.policy.rulesIn d).length := by
  have hmem := hknown.policies d p hp
  have hfor := Input.isFor_of_mem_policiesIn hp
  obtain ⟨m, hchain, hm⟩ := hinv d p.policy hmem hfor
  have hcount : k.blockCount d p.policy = m := by
    unfold Kernel.blockCount
    rw [hchain, length_blocks_policyBlock]
    omega
  have hnormal : ∀ x ∈ k.chainRules filterTableName (chainNameOf d p.policy .policy), x.Normal := by
    intro x hx
    rw [hchain] at hx
    obtain ⟨a, -, hx⟩ := mem_blocks.1 hx
    exact (settled_of_mem_policyBlock hx).normal
  -- the roles of both versions of the policy have different names
  have hinj : ∀ role ∈ rolesBelow (max m (p.policy.rulesIn d).length),
      ∀ role' ∈ rolesBelow (max m (p.policy.rulesIn d).length),
      chainNameOf d p.policy role = chainNameOf d p.policy role' → role = role' := by
    intro role hrole role' hrole' heq
    by_cases hle : m ≤ (p.policy.rulesIn d).length
    · rw [Nat.max_eq_right hle] at hrole hrole'
      exact (hps d d _ hmem hfor _ hmem hfor role hrole role' hrole' heq).2.2
    · rcases hm with rfl | ⟨p₀, hp₀, hfor₀, hkey, hlen⟩
      · omega
      · rw [Nat.max_eq_left (by omega), ← hlen] at hrole hrole'
        rw [← chainNameOf_congr hkey, ← chainNameOf_congr hkey] at heq
        exact (hps d d _ hp₀ hfor₀ _ hp₀ hfor₀ role hrole role' hrole' heq).2.2
  rw [hr.policyChain hknown.keys (hps.nodup hknown.policies) hp hnormal, hcount, hchain,
    policyRules_eq_blocks, reconcile_blocks_eq_iff]
  unfold CommentsTell
  refine forall₂_congr fun a ha => forall₂_congr fun b hb => forall_congr' fun hab => ?_
  exact policyBlock_disjoint_iff (by omega) hb (by omega) hinj

/-- **What a run needs to leave the blocks in order.** -/
theorem Ran.blocksInOrder_iff (hr : Ran h i k s es) (hps : ChainsApart ps)
    (hknown : Known ps h i k s) (hinv : BlocksInv h.byteOrder ps k) :
    BlocksInOrder h.byteOrder i s.kernel ↔ BlocksTell h.byteOrder i k :=
  forall_congr' fun _ => forall₂_congr fun _ hp => hr.blocks_iff hps hknown hinv hp

/-- **A run that meets the condition keeps the blocks.** -/
theorem BlocksInv.run (hinv : BlocksInv h.byteOrder ps k) (hr : Ran h i k s es)
    (hps : ChainsApart ps) (hknown : Known ps h i k s) (htell : BlocksTell h.byteOrder i k) :
    BlocksInv h.byteOrder ps s.kernel := by
  intro d p hp hfor
  by_cases happ : ∃ q ∈ i.policiesIn d, q.policy.key = p.key
  · obtain ⟨q, hq, hkey⟩ := happ
    refine ⟨(q.policy.rulesIn d).length, ?_, .inr ⟨q.policy, hknown.policies d q hq,
      Input.isFor_of_mem_policiesIn hq, hkey, rfl⟩⟩
    have hchain := (hr.blocks_iff hps hknown hinv hq).2 (htell d q hq)
    have hblocks : policyBlock h.byteOrder d q.policy = policyBlock h.byteOrder d p :=
      funext (policyBlock_congr hkey h.byteOrder d)
    rw [← chainNameOf_congr hkey, hchain, policyRules_eq_blocks, hblocks]
  · obtain ⟨m, hchain, -⟩ := hinv d p hp hfor
    have hnone : ∀ q ∈ i.policiesIn d, q.policy.key ≠ p.key :=
      fun q hq hkey => happ ⟨q, hq, hkey⟩
    refine ⟨0, ?_, .inl rfl⟩
    refine hr.chainRules_eq_nil hknown.keys
      (callsIn_policy_eq_nil hps hknown.policies hr.exec hr.answers hp hfor hnone) fun x hx => ?_
    rw [hchain] at hx
    obtain ⟨a, -, hx⟩ := mem_blocks.1 hx
    exact (settled_of_mem_policyBlock hx).normal

/-! ### Comments that the kernel takes -/

/-- A comment that fits was not cut, and neither was one that is stored like it. -/
theorem eq_of_userDataComment_eq {a b : Str}
    (hfit : (userDataComment b).length ≤ nftUserDataMaxLen)
    (h : userDataComment a = userDataComment b) : a = b := by
  rw [length_userDataComment_le_iff] at hfit
  have hcut : a.take 254 = b.take 254 := take_eq_of_userDataComment_eq h
  rw [List.take_of_length_le (show b.length ≤ 254 by omega)] at hcut
  have hlen := congrArg List.length hcut
  rw [List.length_take] at hlen
  rwa [List.take_of_length_le (show a.length ≤ 254 by omega)] at hcut

/-- The mark resets and the mark checks of two blocks are told apart by their comments, when those
of one of the blocks fit. -/
theorem userData_ne_of_fits {bo : ByteOrder} {d : Direction} {p : MultiNetworkPolicy} {a b : Nat}
    (hab : a ≠ b) (hfits : ∀ x ∈ policyBlock bo d p b, x.userData.length ≤ nftUserDataMaxLen) :
    resetUserData bo d p a ≠ resetUserData bo d p b ∧
      checkUserData bo d p a ≠ checkUserData bo d p b := by
  have hreset : (resetUserData bo d p b).length ≤ nftUserDataMaxLen :=
    hfits _ (List.mem_cons_self ..)
  have hcheck : (checkUserData bo d p b).length ≤ nftUserDataMaxLen :=
    hfits _ (.tail _ (.tail _ (.tail _ (.head _))))
  constructor
  · intro heq
    have htext := eq_of_userDataComment_eq hreset heq
    exact hab (decimal_injective (List.append_cancel_left (List.append_cancel_right htext)))
  · intro heq
    have htext := eq_of_userDataComment_eq hcheck heq
    exact hab (decimal_injective (List.append_cancel_left (List.append_cancel_right htext)))

/-- **A run under the limit of the kernel meets the condition.**  The blocks that were there have
comments that fit, and so have those that are there now. -/
theorem Ran.blocksTell (hr : Ran h i k s es) (hps : ChainsApart ps) (hknown : Known ps h i k s)
    (hinv : BlocksInv h.byteOrder ps k) (hfits : k.UserDataFits) (hfits' : s.kernel.UserDataFits) :
    BlocksTell h.byteOrder i k := by
  intro d p hp a ha b hb hmin
  obtain ⟨m, hchain, -⟩ := hinv d p.policy (hknown.policies d p hp)
    (Input.isFor_of_mem_policiesIn hp)
  have hcount : k.blockCount d p.policy = m := by
    unfold Kernel.blockCount
    rw [hchain, length_blocks_policyBlock]
    omega
  rw [hcount] at ha hb hmin
  refine userData_ne_of_fits (by omega) fun x hx => ?_
  by_cases hbm : b < m
  · -- the block goes
    refine hfits.chainRules (t := filterTableName) (by decide)
      (c := chainNameOf d p.policy .policy) ?_
    rw [hchain]
    exact mem_blocks.2 ⟨b, hbm, hx⟩
  · -- the block comes
    refine hfits'.chainRules (t := filterTableName) (by decide)
      (c := chainNameOf d p.policy .policy) ?_
    have hnormal : ∀ x ∈ k.chainRules filterTableName (chainNameOf d p.policy .policy),
        x.Normal := by
      intro x hx
      rw [hchain] at hx
      obtain ⟨_, -, hx⟩ := mem_blocks.1 hx
      exact (settled_of_mem_policyBlock hx).normal
    rw [hr.policyChain hknown.keys (hps.nodup hknown.policies) hp hnormal, mem_reconcile,
      policyRules_eq_blocks]
    exact mem_blocks.2 ⟨b, by omega, hx⟩

end Histories

/-- A policy with a number of rules that let everything in. -/
def openPolicy (name : Str) (hname : isDNS1123Subdomain name = true) (rules : Nat) :
    MultiNetworkPolicy :=
  ingressPolicy name hname (str "net1") (List.replicate rules ⟨[], []⟩)

/-- A pod under this policy. -/
def openInput (name : Str) (hname : isDNS1123Subdomain name = true) (rules : Nat) : Input :=
  podInput [str "net1"] (onePolicy (openPolicy name hname rules))

/-- The versions of a policy with up to two rules. -/
def openVersions (name : Str) (hname : isDNS1123Subdomain name = true) : List MultiNetworkPolicy :=
  [openPolicy name hname 1, openPolicy name hname 2]

theorem openInput_known {name : Str} {hname : isDNS1123Subdomain name = true} {rules : Nat}
    (hmem : openPolicy name hname rules ∈ openVersions name hname) (d : Direction)
    (p : InternalPolicy) (hp : p ∈ (openInput name hname rules).policiesIn d) :
    p.policy ∈ openVersions name hname := by
  have hpolicy := Input.mem_policies_of_mem_policiesIn hp
  rw [List.mem_singleton.1 hpolicy]
  exact hmem

theorem isDNS1123Subdomain_uzperif : isDNS1123Subdomain (str "uzperif") = true := by decide

theorem nodup_webAndUzperif :
    [(str "default", str "web"), (str "default", str "uzperif")].Nodup := by
  decide

/-- The policy has one rule left, and there is a second policy. -/
def collidingInput : Input :=
  podInput [str "net1"] ⟨[openPolicy (str "web") isDNS1123Subdomain_web 1,
    openPolicy (str "uzperif") isDNS1123Subdomain_uzperif 1], nodup_webAndUzperif⟩

end MultiNetPolicy
