import MultiNetPolicy.Equiv.Busy
import MultiNetPolicy.Equiv.Union

/-!
# Comments

The comment of a rule is one attribute of its user data: a type, the length of the text in one byte,
and the text with a final zero.  `userDataComment` cuts a text at 254 bytes, for which the length
just fits its byte; with type and length the user data is then one byte longer than the kernel
accepts.

* `length_userDataComment_le_iff`: only texts of at most 253 bytes are accepted.
* `commented_renderInput`: every rule of a run carries such a comment, and short names of policies
  and interfaces keep all of them short (`Input.ShortTexts`).
-/

namespace MultiNetPolicy

open ByteString StateExcept

/-! ### User data -/

/-- `NFT_USERDATA_MAXLEN`: the kernel refuses a rule with more user data. -/
def nftUserDataMaxLen : Nat := 256

/-- The text of a comment with its final zero. -/
def commentPayload (comment : Str) : Str := comment.take userDataCommentMaxLen ++ [0x00]

/-- A comment is stored with its terminating zero. -/
theorem length_commentPayload (comment : Str) :
    (commentPayload comment).length = min 254 comment.length + 1 := by
  rw [commentPayload, List.length_append, List.length_take]
  rfl

/-- One attribute, whose length byte does not wrap around. -/
theorem userDataComment_eq (comment : Str) :
    userDataComment comment =
      0x00 :: UInt8.ofNat (commentPayload comment).length :: commentPayload comment ∧
    (UInt8.ofNat (commentPayload comment).length).toNat = (commentPayload comment).length := by
  have hlen := length_commentPayload comment
  constructor
  · rw [userDataComment, appendComment, commentPayload, List.length_append]
    rfl
  · rw [UInt8.toNat_ofNat', Nat.mod_eq_of_lt]
    omega

/-- What the kernel takes: comments of at most 253 bytes. -/
theorem length_userDataComment_le_iff (comment : Str) :
    (userDataComment comment).length ≤ nftUserDataMaxLen ↔ comment.length ≤ 253 := by
  rw [(userDataComment_eq comment).1, List.length_cons, List.length_cons, length_commentPayload,
    nftUserDataMaxLen]
  omega

/-- What is read back is the text, up to 254 bytes of it. -/
theorem getComment_userDataComment (comment : Str) :
    getComment (userDataComment comment) = .ok (some (comment.take 254)) := by
  obtain ⟨heq, hlen⟩ := userDataComment_eq comment
  have hget : userdataGet (userDataComment comment).length (userDataComment comment) 0x00 =
      .ok (some (commentPayload comment)) := by
    rw [heq, List.length_cons, List.length_cons, userdataGet, hlen, if_neg (Nat.lt_irrefl _),
      if_pos rfl, List.take_length]
  have htext : (commentPayload comment).getLast? = some 0 ∧
      (commentPayload comment).dropLast = comment.take 254 := by
    rw [commentPayload, List.getLast?_concat, List.dropLast_concat]
    exact ⟨rfl, rfl⟩
  rw [getComment, hget, Except.map, Option.map_some, if_pos htext.1, htext.2]

/-! ### The comments of a run -/

/-- The rule carries a comment, which is short when `S` holds. -/
def Rule.Commented (S : Prop) (r : Rule) : Prop :=
  ∃ comment, r.userData = userDataComment comment ∧ (S → comment.length ≤ 253)

theorem hashString_length_le (s : Str) : (hashString s).length ≤ 8 := hex_length_le (fnv32a_lt _)

/-- Shortened names. -/
theorem shortName_length_le (name : Str) : (shortName name).length ≤ 31 := by
  have hhash := hashString_length_le name
  rcases shortName_cases name with ⟨hlen, hshort⟩ | ⟨-, hshort⟩
  · rw [hshort]
    exact hlen
  · rw [hshort]
    omega

/-- The name of a ports or peers chain is the policy chain's name and a suffix, or shorter. -/
theorem length_indexed_le {base word : Str} {index : Nat} (hbase : Clean base) (hword : Clean word)
    (hlen : word.length = 5) (hdec : (decimal index).length < 239) :
    (nftNameWithSuffix base (str "-") (word ++ str "-" ++ decimal index)).length ≤
      base.length + 7 + (decimal index).length := by
  have hroom : 9 < suffixRoom index := by
    unfold suffixRoom
    omega
  have hcut := truncateNftName_length_le hbase hroom
  rw [nftNameWithSuffix_indexed hword hlen (by omega), List.length_append, List.length_append,
    List.length_cons, List.length_cons, hlen]
  omega

namespace Render

variable {bo : ByteOrder} {deps : PolicyDeps} {S : Prop}

/-- A rule with a comment. -/
theorem commented_newRule {chain : Chain} {comment : Str} {exprs : List Expr}
    (h : S → comment.length ≤ 253) : (newRule chain comment exprs).Commented S := ⟨comment, rfl, h⟩

section Rules

variable {policyName chainName : Str} {chain : Chain}

/-- The rules of a ports chain. -/
theorem commented_applyProtoPorts {table : Chain} {protocol : Protocol} {els : List SetElement}
    (hname : S → policyName.length + chainName.length ≤ 201) :
    Emits (Event.Calls (Rule.Commented S)) (fun _ => True)
      (applyProtoPorts bo table chainName chain policyName protocol els) := by
  refine emits_when fun _ => emits_bind (emits_updateSet fun _ _ => trivial) fun set hset => ?_
  refine emits_wrapErr (emits_updateRule_unit fun _ => commented_newRule fun hS => ?_)
  have hle := hname hS
  have hshort : set.name.length ≤ 31 := by
    obtain ⟨id, rfl⟩ := hset
    exact shortName_length_le _
  simp only [List.length_append, str]
  simp
  omega

theorem commented_acceptAllRule {what : Str} {mark : BitVec 32} (hwhat : what.length ≤ 5)
    (hname : S → policyName.length + chainName.length ≤ 201) :
    (acceptAllRule bo chainName chain policyName what mark).Commented S := by
  refine commented_newRule fun hS => ?_
  have hle := hname hS
  simp only [List.length_append, str]
  simp
  omega

/-- The rules of an `ipBlock` peer. -/
theorem commented_applyPrefixes {cidr : Str} {index : Nat} {els exceptEls : List SetElement}
    {isV6 : Bool} (hname : S → policyName.length + chainName.length + cidr.length ≤ 224) :
    Emits (Event.Calls (Rule.Commented S)) (fun _ => True)
      (applyPrefixes bo chainName chain policyName cidr index els exceptEls isV6) := by
  refine emits_when fun _ => emits_bind (emits_when fun _ => ?_) fun _ _ => ?_
  · refine emits_bind (emits_wrapErr (emits_updateSet fun _ _ => trivial)) fun set _ => ?_
    refine emits_updateRule_unit fun _ => commented_newRule fun hS => ?_
    have hle := hname hS
    simp only [List.length_append, str]
    simp
    omega
  · refine emits_bind (emits_wrapErr (emits_updateSet fun _ _ => trivial)) fun set _ => ?_
    refine emits_updateRule_unit fun _ => commented_newRule fun hS => ?_
    have hle := hname hS
    simp only [List.length_append, str]
    simp
    omega

/-- The rule of a selector peer. -/
theorem commented_addIPRule {addrs : List Str} {peer : MultiNetworkPolicyPeer} {index : Nat}
    (hname : S → policyName.length + chainName.length ≤ 201) :
    Emits (Event.Calls (Rule.Commented S)) (fun _ => True)
      (addIPRule bo chainName addrs chain policyName peer index) := by
  cases addrs with
  | nil => exact emits_pure trivial
  | cons addr addrs =>
    refine emits_bind (emits_updateSet fun _ _ => trivial) fun set _ => ?_
    refine emits_updateRule_unit fun _ => commented_newRule fun hS => ?_
    have hle := hname hS
    have hhash := hashString_length_le (selectorText peer)
    have hproto :
        (addressFamily ((NetIP.parseIP addr).bind NetIP.to4).isNone).protocol.length = 4 := by
      cases ((NetIP.parseIP addr).bind NetIP.to4).isNone <;> rfl
    simp only [List.length_append, str, hproto]
    simp
    omega

theorem commented_applyPolicyPeer {podInfo : PodInfo} {networks : List Str} {index : Nat}
    {peer : MultiNetworkPolicyPeer} (hname : S → policyName.length + chainName.length ≤ 201)
    (hblock : S → ∀ block ∈ peer.ipBlock,
      policyName.length + chainName.length + block.cidr.length ≤ 224) :
    Emits (Event.Calls (Rule.Commented S)) (fun _ => True)
      (applyPolicyPeer bo deps chainName chain policyName podInfo networks index peer) := by
  unfold applyPolicyPeer
  split
  · rename_i block hpeer
    have hcidr := fun hS => hblock hS block hpeer
    refine emits_wrapErr (emits_bind (emits_wrapErr (emits_ofExcept _)) fun _ _ => ?_)
    refine emits_bind (emits_wrapErr (emits_ofExcept _)) fun _ _ => ?_
    exact emits_bind (emits_wrapErr (commented_applyPrefixes hcidr)) fun _ _ =>
      emits_wrapErr (commented_applyPrefixes hcidr)
  · split
    · refine emits_wrapErr (emits_bind (emits_wrapErr (emits_ofExcept _)) fun _ _ => ?_)
      refine emits_bind (emits_wrapErr (emits_ofExcept _)) fun _ _ => ?_
      refine emits_bind (emits_wrapErr (emits_ofExcept _)) fun _ _ => ?_
      refine emits_wrapErr (emits_bind (emits_ofExcept _) fun _ _ => ?_)
      exact emits_bind (emits_wrapErr (commented_addIPRule hname)) fun _ _ =>
        emits_wrapErr (commented_addIPRule hname)
    · exact emits_fail

section Block

variable {index : Nat} (hclean : Clean chainName)
  (hname : S → policyName.length + chainName.length + (decimal index).length ≤ 194)
include hname

omit hclean in
theorem commented_policyJumpRule (c : Chain) :
    (policyJumpRule chainName chain policyName c.short).Commented S := by
  refine commented_newRule fun hS => ?_
  have hle := hname hS
  have hshort : c.short.name.length ≤ 31 := shortName_length_le _
  simp only [List.length_append, str]
  simp
  omega

include hclean

theorem commented_applyPolicyPortsRules {ports : List MultiNetworkPolicyPort} :
    Emits (Event.Calls (Rule.Commented S)) (fun _ => True)
      (applyPolicyPortsRules bo chainName chain policyName ports index) := by
  have hroom : S → policyName.length + (portsChainName chainName index).length ≤ 201 := by
    intro hS
    have hle := hname hS
    have hports : (portsChainName chainName index).length ≤
        chainName.length + 7 + (decimal index).length :=
      length_indexed_le hclean clean_portsChainSuffix rfl (by omega)
    omega
  refine emits_bind (emits_wrapErr (emits_addChain trivial)) fun portChain hchain => ?_
  rw [hchain]
  refine emits_bind (emits_updateRule fun _ => commented_policyJumpRule hname _) fun _ _ => ?_
  refine emits_bind (emits_ofExcept _) fun els _ => ?_
  refine emits_bind (commented_applyProtoPorts hroom) fun _ _ => ?_
  refine emits_bind (commented_applyProtoPorts hroom) fun _ _ => ?_
  refine emits_bind (commented_applyProtoPorts hroom) fun _ _ => ?_
  exact emits_when fun _ => emits_updateRule_unit fun _ =>
    commented_acceptAllRule (by decide) hroom

theorem commented_applyPolicyPeersRules {podInfo : PodInfo} {networks : List Str}
    {peers : List MultiNetworkPolicyPeer}
    (hblock : S → ∀ peer ∈ peers, ∀ block ∈ peer.ipBlock, policyName.length +
      chainName.length + (decimal index).length + block.cidr.length ≤ 217) :
    Emits (Event.Calls (Rule.Commented S)) (fun _ => True)
      (applyPolicyPeersRules bo deps chainName chain policyName peers podInfo networks index) := by
  have hlen : S → (peersChainName chainName index).length ≤
      chainName.length + 7 + (decimal index).length := by
    intro hS
    have hle := hname hS
    exact length_indexed_le hclean clean_peersChainSuffix rfl (by omega)
  -- the fixed words of the longest comment take the other 52 of the 253 bytes
  have hroom : S → policyName.length + (peersChainName chainName index).length ≤ 201 := by
    intro hS
    have hle := hname hS
    have hpeers := hlen hS
    omega
  refine emits_bind (emits_wrapErr (emits_addChain trivial)) fun peersChain hchain => ?_
  rw [hchain]
  refine emits_bind (emits_updateRule fun _ => commented_policyJumpRule hname _) fun _ _ => ?_
  refine emits_bind (emits_forEach _ _ fun j peer _ hpeer => ?_) fun _ _ => ?_
  · refine commented_applyPolicyPeer hroom fun hS block hb => ?_
    have hle := hblock hS peer hpeer block hb
    have hpeers := hlen hS
    omega
  · exact emits_when fun _ => emits_updateRule_unit fun _ =>
      commented_acceptAllRule (by decide) hroom

/-- The block of a rule, with its ports and its peers chain. -/
theorem commented_applyPolicyRule {resetName direction : Str} {podInfo : PodInfo}
    {networks : List Str} {rule : PolicyRule} (hreset : resetName.length ≤ policyName.length)
    (hblock : S → ∀ peer ∈ rule.peers, ∀ block ∈ peer.ipBlock, policyName.length +
      chainName.length + (decimal index).length + block.cidr.length ≤ 217) :
    Emits (Event.Calls (Rule.Commented S)) (fun _ => True)
      (applyPolicyRule bo deps chainName chain podInfo networks policyName resetName direction index
        rule) := by
  refine emits_bind (emits_wrapErr (emits_updateRule_unit fun _ => commented_newRule fun hS => ?_))
    fun _ _ => emits_bind (emits_wrapErr (commented_applyPolicyPortsRules hclean hname))
    fun _ _ => emits_bind (emits_wrapErr (commented_applyPolicyPeersRules hclean hname hblock))
    fun _ _ => emits_wrapErr (emits_updateRule_unit fun _ => commented_newRule fun hS => ?_)
  · have hle := hname hS
    simp only [List.length_append, str]
    simp
    omega
  · have hle := hname hS
    simp only [List.length_append, str]
    simp
    omega

end Block

end Rules

end Render

/-! ### Short texts -/

/-- The bytes that a policy's namespace and name take. -/
def MultiNetworkPolicy.nameLength (p : MultiNetworkPolicy) : Nat :=
  p.namespace.length + p.name.length

/-- The texts that go into the comments of a policy are short: its name, which most comments have
twice, with the index of a rule and a block of that rule, or with what identifies an interface. -/
structure InternalPolicy.Short (p : InternalPolicy) (d : Direction) (podInfo : PodInfo) : Prop where
  rules : ∀ index < (p.policy.rulesIn d).length,
    2 * p.policy.nameLength + (decimal index).length ≤ 178
  blocks : ∀ index < (p.policy.rulesIn d).length, ∀ rule ∈ p.policy.rulesIn d,
    ∀ peer ∈ rule.peers, ∀ block ∈ peer.ipBlock,
      2 * p.policy.nameLength + (decimal index).length + block.cidr.length ≤ 201
  interfaces : ∀ x ∈ p.interfaces podInfo, p.policy.nameLength + x.netattachName.length +
    x.interfaceName.length + x.interfaceType.length ≤ 152
  name : p.policy.nameLength ≤ 225

instance (p : InternalPolicy) (d : Direction) (podInfo : PodInfo) :
    Decidable (p.Short d podInfo) :=
  decidable_of_iff
    ((∀ index < (p.policy.rulesIn d).length,
      2 * p.policy.nameLength + (decimal index).length ≤ 178) ∧
    (∀ index < (p.policy.rulesIn d).length, ∀ rule ∈ p.policy.rulesIn d, ∀ peer ∈ rule.peers,
      ∀ block ∈ peer.ipBlock,
        2 * p.policy.nameLength + (decimal index).length + block.cidr.length ≤ 201) ∧
    (∀ x ∈ p.interfaces podInfo, p.policy.nameLength + x.netattachName.length +
      x.interfaceName.length + x.interfaceType.length ≤ 152) ∧
    p.policy.nameLength ≤ 225)
    ⟨fun ⟨h₁, h₂, h₃, h₄⟩ => ⟨h₁, h₂, h₃, h₄⟩, fun h => ⟨h.1, h.2, h.3, h.4⟩⟩

/-- The texts of all policies of a run are short. -/
def Input.ShortTexts (i : Input) : Prop :=
  ∀ d, ∀ p ∈ i.policiesIn d, p.Short d i.sortedInfo

instance (i : Input) : Decidable i.ShortTexts :=
  inferInstanceAs (Decidable (∀ d, ∀ p ∈ i.policiesIn d, p.Short d i.sortedInfo))

/-- The length of a policy's full name. -/
theorem length_policyNamespacedName (p : MultiNetworkPolicy) :
    (policyNamespacedName p).length = p.nameLength + 1 := by
  simp [policyNamespacedName, MultiNetworkPolicy.nameLength, str]
  omega

/-- The length of a chain's name. -/
theorem length_policyChainFullName_le (d : Direction) (p : MultiNetworkPolicy) :
    (policyChainFullName d.entry p).length ≤ p.nameLength + 15 := by
  have hcut := truncateNftName_length_le (clean_policyRuleNamespacedName p) d.lt_room
  have hname : (policyRuleNamespacedName p).length = p.nameLength + 1 := by
    simp [policyRuleNamespacedName, MultiNetworkPolicy.nameLength, str]
    omega
  have hentry : (d.entry ++ str "-").length ≤ 14 := by
    cases d <;> decide
  rw [policyChainFullName_eq, List.length_append]
  omega

namespace Render

variable {bo : ByteOrder} {deps : PolicyDeps} {S : Prop} {d : Direction} {podInfo : PodInfo}

/-- The comments of a policy's rules. -/
theorem commented_applyPolicyRules {p : InternalPolicy} {chain : Chain}
    (hshort : S → p.Short d podInfo) :
    Emits (Event.Calls (Rule.Commented S)) (fun _ => True)
      (applyPolicyRules bo deps (policyChainFullName d.entry p.policy) chain podInfo
        p.policyNetworks p.policy) := by
  have hname := length_policyNamespacedName p.policy
  have hchain := length_policyChainFullName_le d p.policy
  have hrule : ∀ {resetName direction : Str}, resetName.length ≤ p.policy.nameLength + 1 →
      Emits (Event.Calls (Rule.Commented S)) (fun _ => True)
        (forEach (applyPolicyRule bo deps (policyChainFullName d.entry p.policy) chain podInfo
          p.policyNetworks (policyNamespacedName p.policy) resetName direction) 0
          (p.policy.rulesIn d)) := by
    intro resetName direction hreset
    refine emits_forEach _ _ fun index rule hindex hrule => ?_
    refine commented_applyPolicyRule (clean_policyChainFullName d p.policy) (fun hS => ?_)
      (by omega) fun hS peer hpeer block hblock => ?_
    · have hle := (hshort hS).rules index (by omega)
      omega
    · have hle := (hshort hS).blocks index (by omega) rule hrule peer hpeer block hblock
      omega
  unfold applyPolicyRules
  rw [isIngressChain_policyChainFullName]
  cases d with
  | ingress => exact hrule (by omega)
  | egress => exact hrule (by rw [MultiNetworkPolicy.nameLength]; omega)

/-- The rules of one policy. -/
theorem commented_applyPolicy {p : InternalPolicy} {direction : Str}
    (hshort : S → p.Short d podInfo) :
    Emits (Event.Calls (Rule.Commented S)) (fun _ => True)
      (applyPolicy bo deps d.entryChain podInfo direction p) := by
  have hname := length_policyNamespacedName p.policy
  refine emits_bind (R := fun _ => True) (emits_wrapErr ?_) fun _ _ => ?_
  · refine emits_bind (emits_wrapErr (emits_addChain trivial)) fun policyChain hchain => ?_
    refine emits_bind (emits_wrapErr (emits_orLoop _ fun x hx => ?_)) fun _ _ => ?_
    · refine emits_updateRule fun _ => commented_newRule fun hS => ?_
      have hle := (hshort hS).interfaces x hx
      -- the jump names a chain, which is short after truncation
      have hjump : policyChain.name.length ≤ 31 := by
        rw [hchain]
        exact shortName_length_le _
      have hentry : d.entryChain.name.length ≤ 13 := by
        cases d <;> decide
      simp only [List.length_append, str, hname]
      simp
      omega
    · exact emits_bind (commented_applyPolicyRules hshort) fun _ _ => emits_pure trivial
  · refine emits_bind (emits_wrapErr (emits_updateRule_unit fun _ =>
      commented_newRule fun hS => ?_))
      fun _ _ => emits_pure trivial
    have hle := (hshort hS).name
    simp only [List.length_append, str, hname]
    simp
    omega

/-- The comments of the policies of a direction. -/
theorem commented_applyPolicies {policies : List InternalPolicy} {direction : Str}
    (hshort : S → ∀ p ∈ policies, p.Short d podInfo) :
    Emits (Event.Calls (Rule.Commented S)) (fun _ => True)
      (applyPolicies bo deps d.entryChain podInfo direction policies) := by
  refine emits_when fun _ => emits_bind (emits_orLoop _ fun p hp => ?_) fun _ _ => ?_
  · exact commented_applyPolicy fun hS => hshort hS p hp
  · exact emits_wrapErr (emits_updateRule_unit fun _ => commented_newRule fun _ => by decide)

/-! ### The rules that every run has -/

theorem commented_applyCommonPrefixRules {chain : Chain} {prefixes : List Str} {name : Str} :
    Emits (Event.Calls (Rule.Commented S)) (fun _ => True)
      (applyCommonPrefixRules chain prefixes name) := by
  have hfamily : ∀ {set : NftSet} {els : List SetElement} {proto : UInt8} {offset len : Nat},
      Emits (Event.Calls (Rule.Commented S)) (fun _ => True)
        (applyCommonPrefixFamily chain set els proto offset len) := by
    intro set els proto offset len
    refine emits_when fun _ => emits_bind (emits_wrapErr (emits_updateSet fun _ _ => trivial))
      fun set hset => emits_updateRule_unit fun _ => commented_newRule fun _ => ?_
    have hshort : set.name.length ≤ 31 := by
      obtain ⟨id, rfl⟩ := hset
      exact shortName_length_le _
    simp only [List.length_append, str]
    simp
    omega
  exact emits_bind (emits_wrapErr (emits_ofExcept _)) fun _ _ =>
    emits_bind hfamily fun _ _ => hfamily

/-- The comments of the common chains are fixed texts. -/
theorem commented_applyCommonChainRules {n : NftState} {cfg : CommonRuleConfig} :
    Emits (Event.Calls (Rule.Commented S)) (fun _ => True) (applyCommonChainRules n cfg) := by
  have hicmp : ∀ {chain : Chain} {icmpv6 : Bool}, Emits (Event.Calls (Rule.Commented S))
      (fun _ => True) (allowICMP chain icmpv6) := by
    intro chain icmpv6
    refine emits_updateRule_unit fun _ => commented_newRule fun _ => ?_
    cases icmpv6 <;> decide
  have hndp : ∀ {chain : Chain}, Emits (Event.Calls (Rule.Commented S)) (fun _ => True)
      (allowNeighborDiscovery chain) := fun {chain} =>
    emits_bind (emits_wrapErr (emits_updateSet fun _ _ => trivial)) fun set _ =>
      emits_bind (emits_wrapErr (emits_updateRule fun _ => commented_newRule fun _ => by decide))
        fun _ _ => emits_pure trivial
  have hct : ∀ {chain : Chain}, Emits (Event.Calls (Rule.Commented S)) (fun _ => True)
      (allowConntracked n.byteOrder chain) := fun {chain} =>
    emits_updateRule_unit fun _ => commented_newRule fun _ => by decide
  refine emits_bind (R := fun _ => True) ?_ fun _ _ => ?_
  · unfold applyCommonICMPv6
    split
    · exact emits_bind (emits_wrapErr hicmp) fun _ _ => emits_wrapErr hicmp
    · exact emits_bind (emits_wrapErr hndp) fun _ _ => emits_wrapErr hndp
  · refine emits_bind (emits_when fun _ =>
      emits_bind (emits_wrapErr hicmp) fun _ _ => emits_wrapErr hicmp) fun _ _ => ?_
    refine emits_bind (emits_when fun _ => emits_wrapErr commented_applyCommonPrefixRules)
      fun _ _ => ?_
    refine emits_bind (emits_when fun _ => emits_wrapErr commented_applyCommonPrefixRules)
      fun _ _ => ?_
    exact emits_bind (emits_wrapErr hct) fun _ _ => emits_wrapErr hct

/-- **Every rule of a run carries a comment, which is short when the texts of its policies are.** -/
theorem commented_renderInput {i : Input} {es : List Event} {u : Unit}
    (h : Exec (renderInput bo i) es u) :
    ∀ e ∈ es, e.Calls (Rule.Commented i.ShortTexts) := by
  obtain ⟨es₁, es₂, es₃, es₄, rfl, h₁, h₂, h₃, h₄⟩ := exec_renderInput h
  intro e he
  simp only [List.mem_append] at he
  rcases he with he | he | he | he
  · obtain ⟨-, filterSet, natSet, fresh₁, fresh₂, b₁, b₂, b₃, b₄, b₅, -, -, rfl⟩ :=
      exec_bootstrapNetfilterRules h₁
    rcases List.mem_append.1 he with he | he
    · obtain ⟨c, -, rfl⟩ := List.mem_map.1 he
      trivial
    · simp only [List.mem_cons, List.not_mem_nil, or_false] at he
      rcases he with rfl | rfl | rfl | rfl | rfl | rfl | rfl
      · trivial
      · exact commented_newRule fun _ => by decide
      · exact commented_newRule fun _ => by decide
      · trivial
      · exact commented_newRule fun _ => by decide
      · exact commented_newRule fun _ => by decide
      · exact commented_newRule fun _ => by decide
  · exact calls_of_emits h₂ commented_applyCommonChainRules e he
  · exact calls_of_emits h₃ (commented_applyPolicies (d := .ingress) fun hS => hS .ingress) e he
  · exact calls_of_emits h₄ (commented_applyPolicies (d := .egress) fun hS => hS .egress) e he

end Render

/-- **When comments meet the limit of the kernel.**  A comment is one attribute that is read back up
to 254 bytes, but its user data is accepted only up to 253; every rule of a run carries such a
comment. -/
theorem comments_fit_iff (comment : Str) :
    ((∃ payload, userDataComment comment = 0x00 :: UInt8.ofNat payload.length :: payload ∧
        (UInt8.ofNat payload.length).toNat = payload.length) ∧
      getComment (userDataComment comment) = .ok (some (comment.take 254)) ∧
      ((userDataComment comment).length ≤ nftUserDataMaxLen ↔ comment.length ≤ 253)) ∧
    ∀ (h : Host) (i : Input) (k : Kernel) (s : State), k.WF →
      queueRules h i (State.new k) = .ok () s → ∀ r ∈ s.requested,
        ∃ comment, r.userData = userDataComment comment ∧
          (i.ShortTexts → comment.length ≤ 253) := by
  constructor
  · exact ⟨⟨commentPayload comment, userDataComment_eq comment⟩, getComment_userDataComment comment,
      length_userDataComment_le_iff comment⟩
  · intro h i k s wf hs r hr
    obtain ⟨s₀, es, hst⟩ := queueRules_staged wf hs
    rw [hst.requested] at hr
    obtain ⟨action, force, isNew, he⟩ := mem_rulesOf.1 hr
    exact Render.commented_renderInput hst.exec _ he

/-- A pod with a policy whose name has the given number of bytes. -/
def namedInput (n : Nat) (hname : isDNS1123Subdomain (List.replicate n 0x61) = true) : Input :=
  podInput [str "net1"] (onePolicy
    (ingressPolicy (List.replicate n 0x61) hname (str "net1") [⟨[], []⟩]))

set_option maxRecDepth 100000 in
/-- A policy with a name of 63 bytes. -/
theorem short_names_fit : ∃ s,
    queueRules Host.reliable (namedInput 63 (by decide +kernel)) (State.new Kernel.empty) =
      .ok () s ∧
    ∀ r ∈ s.requested, r.userData.length ≤ nftUserDataMaxLen := by
  have hrun : (queuedState Host.reliable (namedInput 63 (by decide +kernel)) Kernel.empty).isSome =
      true := by
    decide +kernel
  have hshort : (namedInput 63 (by decide +kernel)).ShortTexts := by decide +kernel
  obtain ⟨s, hs⟩ := Option.isSome_iff_exists.1 hrun
  have hqueue := queuedState_eq_some hs
  refine ⟨s, hqueue, fun r hr => ?_⟩
  obtain ⟨comment, hdata, hlen⟩ := (comments_fit_iff []).2 _ _ _ s Kernel.WF.empty hqueue r hr
  rw [hdata, (comments_fit_iff comment).1.2.2]
  exact hlen hshort

/-- The user data of a rule to be added is not too long. -/
def Op.userDataFits : Op → Bool
  | .addRule r => r.userData.length ≤ nftUserDataMaxLen
  | .insertRule r => r.userData.length ≤ nftUserDataMaxLen
  | _ => true

/-- A kernel that refuses longer user data. -/
def Host.limited : Host := { Host.reliable with accepts := fun _ ops => ops.all Op.userDataFits }

/-- The kernel takes no rule with longer user data. -/
def Host.LimitsUserData (h : Host) : Prop :=
  ∀ k ops, h.accepts k ops = true → ∀ op ∈ ops, op.userDataFits = true

theorem Host.limited_limits : Host.limited.LimitsUserData := fun _ _ hacc => List.all_eq_true.1 hacc

set_option maxRecDepth 100000 in
/-- A comment of 254 bytes is too long already, and for a policy with a name of 120 bytes the whole
batch is refused. -/
theorem long_names_are_refused :
    (userDataComment (List.replicate 254 0x61)).length = 257 ∧
    (queuedState Host.limited (namedInput 120 (by decide +kernel)) Kernel.empty).any (fun s =>
      s.requested.any fun r => r.userData.length == 257) = true ∧
    (committed Host.limited (namedInput 120 (by decide +kernel)) Kernel.empty).isNone = true ∧
    (committed Host.limited (namedInput 63 (by decide +kernel)) Kernel.empty).isSome = true := by
  decide +kernel

/-! ### Rulesets under the limit -/

/-- The rules of the daemon's tables have user data that the kernel takes. -/
def Kernel.UserDataFits (k : Kernel) : Prop :=
  ∀ r ∈ k.rules, isManaged r.table = true → r.userData.length ≤ nftUserDataMaxLen

/-- Without rules there are no comments. -/
theorem Kernel.ManagedEmpty.userDataFits {k : Kernel} (hk : k.ManagedEmpty) : k.UserDataFits := by
  intro r hr hm
  rw [hk.rules r hr] at hm
  cases hm

namespace Kernel.UserDataFits

variable {k : Kernel}

theorem chainRules (hk : k.UserDataFits) {t c : Str} (ht : isManaged t = true) {x : Rule}
    (hx : x ∈ k.chainRules t c) : x.userData.length ≤ nftUserDataMaxLen := by
  rw [Kernel.chainRules_eq] at hx
  obtain ⟨r, hr, hc, rfl⟩ := mem_inView.1 hx
  exact hk r hr (by rw [hc.1]; exact ht)

theorem of_subset {k' : Kernel} (hk : k.UserDataFits)
    (hsub : ∀ r ∈ k'.rules, isManaged r.table = true → r ∈ k.rules) : k'.UserDataFits :=
  fun r hr hm => hk r (hsub r hr hm) hm

/-- A message that fits. -/
theorem apply (hk : k.UserDataFits) {op : Op} (hop : op.userDataFits = true) :
    (k.apply op).UserDataFits := by
  cases op with
  | addRule r =>
    intro x hx hm
    rcases List.mem_append.1 hx with hx | hx
    · exact hk x hx hm
    · rw [List.mem_singleton.1 hx]
      exact of_decide_eq_true hop
  | insertRule r =>
    intro x hx hm
    rcases List.mem_cons.1 hx with rfl | hx
    · exact of_decide_eq_true hop
    · exact hk x hx hm
  | delChain t c => exact hk.of_subset fun r hr _ => List.mem_of_mem_filter hr
  | delRule t c n => exact hk.of_subset fun r hr _ => List.mem_of_mem_filter hr
  | addTable t =>
    rw [Kernel.apply]
    split <;> exact hk
  | addChain c =>
    rw [Kernel.apply]
    split <;> exact hk
  | addSet x =>
    rw [Kernel.apply]
    split <;> exact hk
  | addElements t n els => exact hk
  | deleteElements t n els => exact hk
  | delSet t n => exact hk

/-- A batch that fits. -/
theorem commit : ∀ {ops : List Op} {k : Kernel}, k.UserDataFits →
    (∀ op ∈ ops, op.userDataFits = true) → (k.commit ops).UserDataFits
  | [], _, hk, _ => hk
  | op :: ops, k, hk, hops => by
    rw [Kernel.commit_cons]
    exact commit (hk.apply (hops op (List.mem_cons_self ..)))
      fun o ho => hops o (List.mem_cons_of_mem _ ho)

/-- **A run keeps to the limit of the kernel.**  Its legacy cleanup does not touch the daemon's
tables, its main batch was accepted, and its cleanup only deletes. -/
theorem run (hk : k.UserDataFits) (wf : k.WF) {h : Host} (hlimit : h.LimitsUserData) {i : Input}
    {s : State} (hs : applyPolicyRulesForPodAndFamily h i (State.new k) = .ok () s) :
    s.kernel.UserDataFits := by
  unfold applyPolicyRulesForPodAndFamily at hs
  rw [bind_eq_ok] at hs
  obtain ⟨_, s₂, hcommit, hcleanup⟩ := hs
  rw [wrapErr_eq_ok] at hcleanup
  obtain ⟨-, -, -, wf₂, hm, -⟩ := commitRules_ok wf hcommit
  unfold commitRules at hcommit
  rw [bind_eq_ok] at hcommit
  obtain ⟨_, s₁, hqueue, hflush⟩ := hcommit
  rw [wrapErr_eq_ok] at hflush
  obtain ⟨es, hb⟩ := queueRules_ok wf hqueue
  -- the legacy cleanup only deletes
  have hfits₁ : s₁.kernel.UserDataFits := by
    refine hk.of_subset fun r hr hm => ?_
    have hmem : r ∈ s₁.kernel.rules.filter fun r => !legacyNames.contains r.table :=
      List.mem_filter.2 ⟨hr, by rw [not_legacy_of_isManaged hm]; rfl⟩
    rw [hb.agree.rules] at hmem
    exact List.mem_of_mem_filter hmem
  -- the host has refused the batch if one of its comments is too long
  have hfits₂ : s₂.kernel.UserDataFits := by
    obtain ⟨-, rfl⟩ := flush_eq_ok hflush
    refine hfits₁.commit fun op hop => ?_
    rcases flush_accepted hflush with hnil | hacc
    · rw [hnil] at hop
      cases hop
    · exact hlimit _ _ hacc op hop
  refine hfits₂.of_subset fun r hr _ => ?_
  rw [(cleanup_ok wf₂ hm hcleanup).2] at hr
  exact List.mem_of_mem_filter hr

end Kernel.UserDataFits

end MultiNetPolicy
