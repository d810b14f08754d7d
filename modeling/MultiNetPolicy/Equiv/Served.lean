import MultiNetPolicy.Equiv.Meaning

/-!
# Rules and what they stand for

A ruleset that holds the sets a rendering asks for decides about a packet as the elements of these
sets say, and for plain ports and peers that is what the policy lists.

* `holds_addressIn`, `holds_portIn`: the tests of a rule.
* `Kernel.HoldsSet`: a set has the elements it was asked for with.
* `firstPeer_peers`, `findSome?_setAnswer`: the rules of a peers chain, and what plain peers list.
* `any_isHit_ports`, `portSetsAdmit_eq`: the rules of a ports chain, and what plain ports list.
-/

namespace MultiNetPolicy

open ByteString ChainMachine Render Intervals

/-! ### Tests -/

section Guards

variable {bo : ByteOrder} {k : Kernel} {pkt : Packet} {t : Str}

/-- Conditions one after the other. -/
theorem guardRegs_append (g g' : List Expr) (regs : Registers) :
    guardRegs bo k pkt t (g ++ g') regs =
      (guardRegs bo k pkt t g regs).bind (guardRegs bo k pkt t g') := by
  induction g generalizing regs with
  | nil => rfl
  | cons e g ih =>
    rw [List.cons_append, guardRegs, guardRegs]
    cases evalExpr bo k pkt t e regs 0 with
    | next regs' m => exact ih regs'
    | mismatch => rfl
    | verdict a => rfl

theorem holds_append_counter (g : List Expr) :
    holds bo k pkt t (g ++ [.counter]) = holds bo k pkt t g := by
  rw [holds, holds, guardRegs_append]
  cases guardRegs bo k pkt t g fun _ => none <;> rfl

theorem cmpMatches_byte (x y : UInt8) : cmpMatches .eq [x] [y] = decide (x = y) := by
  rw [Bool.eq_iff_iff]
  simp [cmpMatches]

/-- The test of one byte. -/
theorem guardRegs_protocolIs {key : MetaKey} {x : UInt8}
    (hkey : pkt.metaValue bo 0 key = some [x]) (y : UInt8) (regs : Registers) :
    guardRegs bo k pkt t (protocolIs key y) regs =
      if x = y then some (Function.update regs 1 (some [x])) else none := by
  simp only [protocolIs, guardRegs, evalExpr, hkey, ExprResult.load, ExprResult.guard,
    Function.update_self, Option.any_some, cmpMatches_byte, decide_eq_true_eq]
  by_cases h : x = y
  · rw [if_pos h, if_pos h]
  · rw [if_neg h, if_neg h]

/-- The lookup of a part of a header. -/
theorem isSome_guardRegs_lookup (base : PayloadBase) (offset len : Nat) (name : Str) (id : Nat)
    (regs : Registers) :
    (guardRegs bo k pkt t [.payload 1 base offset len, .lookup 1 name id] regs).isSome =
      (pkt.payloadValue offset len base).any (k.lookupSet t name) := by
  simp only [guardRegs, evalExpr]
  cases pkt.payloadValue offset len base with
  | none => rfl
  | some v =>
    simp only [ExprResult.load, ExprResult.guard, Function.update_self, Option.any_some]
    cases k.lookupSet t name v <;> rfl

/-- What a rule with an address set tests. -/
theorem holds_addressIn (proto : UInt8) (offset len : Nat) (set : NftSet) :
    holds bo k pkt t (addressIn proto offset len set) =
      (decide (pkt.nfproto = proto) &&
        (slice pkt.networkHeader offset len).any (k.lookupSet t set.name)) := by
  rw [holds, addressIn, guardRegs_append, guardRegs_protocolIs rfl]
  by_cases h : pkt.nfproto = proto
  · rw [if_pos h, Option.bind_some, isSome_guardRegs_lookup, decide_eq_true h, Bool.true_and]
    rfl
  · rw [if_neg h, decide_eq_false h]
    rfl

/-- What a rule with a port set tests. -/
theorem holds_portIn (proto : UInt8) (set : NftSet) :
    holds bo k pkt t (portIn proto set) =
      (decide (pkt.l4proto = proto) &&
        (slice pkt.transportHeader 2 2).any (k.lookupSet t set.name)) := by
  have hsplit : portIn proto set = (protocolIs .l4proto proto ++
      [.payload 1 .transportHeader 2 2, .lookup 1 set.name set.id]) ++ [.counter] := rfl
  rw [hsplit, holds_append_counter, holds, guardRegs_append, guardRegs_protocolIs rfl]
  by_cases h : pkt.l4proto = proto
  · rw [if_pos h, Option.bind_some, isSome_guardRegs_lookup, decide_eq_true h, Bool.true_and]
    rfl
  · rw [if_neg h, decide_eq_false h]
    rfl

/-- The test of a peers rule is one of the peer's address. -/
theorem holds_peerIn {chainName : Str} {d : Direction}
    (hd : isIngressChain chainName = decide (d = .ingress)) (isV6 : Bool) (set : NftSet) :
    holds bo k pkt t (peerIn (addressFamily isV6) chainName set) = true ↔
      ∃ a, pkt.peer d = some a ∧ a.is4 = !isV6 ∧ k.lookupSet t set.name a.asSlice = true := by
  have hoffset : (if isIngressChain chainName then (addressFamily isV6).offset
      else (addressFamily isV6).offset + (addressFamily isV6).payloadLen) = d.peerOffset isV6 := by
    rw [hd]
    simp only [decide_eq_true_eq, Direction.peerOffset]
  rw [Packet.exists_peer_iff isV6 (fun bytes => k.lookupSet t set.name bytes = true), peerIn,
    hoffset, holds_addressIn, Bool.and_eq_true, decide_eq_true_eq, Option.any_eq_true]

end Guards

/-! ### Sets -/

/-- The ruleset has a set with given elements. -/
structure Kernel.HoldsSet (k : Kernel) (s : NftSet) (els : List SetElement) : Prop where
  found : ∃ x, k.findSet s.table s.name = some x ∧ x.interval = s.interval
  contents : ∀ y, y ∈ contentsOf (k.getElements s.table s.name) ↔ y ∈ contentsOf els

/-- All sets that are asked for in the filter table are there. -/
def Kernel.HoldsSets (k : Kernel) (es : List Event) : Prop :=
  ∀ s els fresh, .set s els fresh ∈ es → s.table = filterTableName → k.HoldsSet s els

theorem Kernel.HoldsSets.mono {k : Kernel} {es es' : List Event} (h : k.HoldsSets es)
    (hsub : es' ⊆ es) : k.HoldsSets es' := fun s els fresh he => h s els fresh (hsub he)

/-- A lookup in a set that holds what was asked for. -/
theorem Kernel.HoldsSet.lookup {k : Kernel} {s : NftSet} {els : List SetElement}
    (h : k.HoldsSet s els) (key : Str) :
    k.lookupSet s.table s.name key = setContains s.interval els key := by
  obtain ⟨x, hx, hinterval⟩ := h.found
  rw [Kernel.lookupSet, hx, ← hinterval]
  exact setContains_congr h.contents _ _

/-- A set of prefixes that do not break each other is their union. -/
theorem setContains_unbroken {texts : List Str} {els : List SetElement × List SetElement}
    (h : getPrefixesAsSetInterval texts = .ok els) (hunbroken : UnbrokenPrefixes texts)
    {a : NetIP.Addr} (ha : a.zone = []) :
    setContains true (if a.is4 then els.1 else els.2) a.asSlice = inPrefixes texts a := by
  obtain ⟨extra, hextra, hmarked⟩ := setContains_prefixes h a.is4
  have hm := markersOf_ranges (l := rangesOf texts a.is4) hextra
  rw [Bool.eq_iff_iff, asSlice_eq, hmarked _ (addrNumber_lt a), inPrefixes_iff,
    ← covered_rangesOf ha]
  exact ⟨Marked.covered hm, (hunbroken a.is4).marked hm⟩

/-- One prefix breaks nothing. -/
theorem unbrokenPrefixes_singleton (text : Str) : UnbrokenPrefixes [text] := by
  intro is4 r hr e he hcovered
  obtain ⟨p, hp, -, rfl⟩ := mem_rangesOf.1 hr
  obtain ⟨r', hr', hcontains⟩ := hcovered
  obtain ⟨p', hp', -, rfl⟩ := mem_rangesOf.1 hr'
  have heq : p' = p := by
    rw [prefixesOf] at hp hp'
    cases hparse : NetIP.parsePrefix text with
    | none => simp [hparse] at hp
    | some q => simp_all
  subst heq
  exact absurd (hcontains.2 e he) (lt_irrefl e)

/-! ### Peers -/

section Peers

variable {bo : ByteOrder} {k : Kernel} {pkt : Packet} {d : Direction}

/-- The first decision of two lists of rules. -/
theorem firstPeer_append (l₁ l₂ : List Rule) :
    firstPeer bo k pkt (l₁ ++ l₂) = (firstPeer bo k pkt l₁).or (firstPeer bo k pkt l₂) := by
  rw [firstPeer, firstPeer, firstPeer, List.find?_append]
  cases l₁.find? fun r => r.isHit bo k pkt <;> rfl

theorem firstPeer_singleton (r : Rule) :
    firstPeer bo k pkt [r] = if r.isHit bo k pkt then some (!r.isDrop) else none := by
  rw [firstPeer, List.find?_singleton]
  split <;> rfl

variable {chainName policyName : Str} {chain : Chain}
  (hd : isIngressChain chainName = decide (d = .ingress))

include hd in
/-- A rule of a peers chain speaks of the addresses of its set. -/
theorem firstPeer_rule {isV6 : Bool} (set : NftSet) {r : Rule} {b : Bool} {tail : List Expr}
    (htail : tail = [] ∨ tail = [.counter])
    (hguards : r.guards = peerIn (addressFamily isV6) chainName set ++ tail)
    (hdrop : r.isDrop = !b) :
    firstPeer bo k pkt [r] = (pkt.peer d).bind fun a =>
      if a.is4 = !isV6 ∧ k.lookupSet filterTableName set.name a.asSlice = true then some b
      else none := by
  -- a hit: the packet has a peer address of the family, and the set has it
  have hhit : r.isHit bo k pkt = true ↔ ∃ a, pkt.peer d = some a ∧ a.is4 = !isV6 ∧
      k.lookupSet filterTableName set.name a.asSlice = true := by
    rw [Rule.isHit, hguards]
    rcases htail with rfl | rfl
    · rw [List.append_nil]
      exact holds_peerIn hd isV6 set
    · rw [holds_append_counter]
      exact holds_peerIn hd isV6 set
  rw [firstPeer_singleton, hdrop, Bool.not_not]
  cases hpeer : pkt.peer d with
  | none =>
    rw [hpeer] at hhit
    rw [if_neg (by simp [hhit])]
    rfl
  | some a =>
    rw [hpeer] at hhit
    simp only [Option.some.injEq, exists_eq_left'] at hhit
    rw [Option.bind_some]
    exact ite_congr (propext hhit) (fun _ => rfl) fun _ => rfl

include hd in
/-- What the rule of an address set decides. -/
theorem firstPeer_peerRule (isV6 : Bool) (comment : Str) (set : NftSet) :
    firstPeer bo k pkt [(peerRule bo (addressFamily isV6) chainName chain comment set).content] =
      (pkt.peer d).bind fun a =>
        if a.is4 = !isV6 ∧ k.lookupSet filterTableName set.name a.asSlice = true then some true
        else none := by
  have hexprs : (peerRule bo (addressFamily isV6) chainName chain comment set).content.exprs =
      peerIn (addressFamily isV6) chainName { set with id := 0 } ++
        (setMark bo peerRuleMark ++ [.counter, .verdict .ret []]) := rfl
  refine firstPeer_rule hd { set with id := 0 } (.inl rfl) ?_ ?_
  · rw [List.append_nil]
    exact Rule.guards_eq rfl rfl hexprs
  · have hshape : PeerRule bo (peerRule bo (addressFamily isV6) chainName chain comment set) :=
      ⟨peerIn (addressFamily isV6) chainName set, rfl, rfl⟩
    exact hshape.content.isDrop_eq

include hd in
/-- What the rule of an exception set decides. -/
theorem firstPeer_exceptRule (isV6 : Bool) (cidr : Str) (set : NftSet) :
    firstPeer bo k pkt
        [(exceptRule (addressFamily isV6) chainName chain policyName cidr set).content] =
      (pkt.peer d).bind fun a =>
        if a.is4 = !isV6 ∧ k.lookupSet filterTableName set.name a.asSlice = true then some false
        else none := by
  have hexprs :
      (exceptRule (addressFamily isV6) chainName chain policyName cidr set).content.exprs =
      (peerIn (addressFamily isV6) chainName { set with id := 0 } ++ [.counter]) ++
        [.verdict .drop []] := rfl
  refine firstPeer_rule hd { set with id := 0 } (.inr rfl) (Rule.guards_eq rfl rfl hexprs) ?_
  rw [Rule.isDrop, hexprs, List.getLast?_concat]
  rfl

/-- The calls of one version of an IP block for one kind of prefixes. -/
def blockCalls (chain : Chain) (chainName kind : Str) (isV6 : Bool) (index : Nat) (constant : Bool)
    (rule : NftSet → Rule) (els : List SetElement) (es : List Event) : Prop :=
  ∃ id fresh isNew,
    es =
      [.set ((ipBlockSet chain.table chainName kind (addressFamily isV6) index constant).short id)
        els fresh,
      .rule (rule ((ipBlockSet chain.table chainName kind (addressFamily isV6) index
        constant).short id)) .addRule false isNew]

variable {es : List Event} {u : Unit}

/-- The calls for one family of an address block. -/
theorem exec_applyPrefixes {cidr : Str} {index : Nat} {els exceptEls : List SetElement}
    {isV6 : Bool}
    (h : Exec (applyPrefixes bo chainName chain policyName cidr index els exceptEls isV6) es u) :
    (els = [] ∧ es = []) ∨ els ≠ [] ∧ ∃ es₁ es₂, es = es₁ ++ es₂ ∧
      (exceptEls = [] ∧ es₁ = [] ∨
        blockCalls chain chainName peerIPBlockExceptPrefix isV6 index false
        (exceptRule (addressFamily isV6) chainName chain policyName cidr) exceptEls es₁) ∧
      blockCalls chain chainName peerIPBlockPrefix isV6 index true
        (ipBlockRule bo (addressFamily isV6) chainName chain policyName cidr) els es₂ := by
  unfold applyPrefixes at h
  simp only [exec_when, exec_bind, exec_wrapErr, exec_updateSet, exec_updateRule, exec_pure,
    gt_iff_lt, List.length_pos_iff, not_not] at h
  rcases h with ⟨hels, _, es₁, es₂, hexcept, ⟨_, _, _, ⟨id, fresh, -, rfl, rfl⟩,
    ⟨isNew, _, _, rfl, ⟨-, rfl⟩, rfl⟩, rfl⟩, rfl⟩ | ⟨hels, rfl⟩
  · refine .inr ⟨hels, es₁, _, rfl, ?_, id, fresh, isNew, rfl⟩
    rcases hexcept with ⟨-, _, _, _, ⟨id', fresh', -, rfl, rfl⟩,
      ⟨isNew', _, _, rfl, ⟨-, rfl⟩, rfl⟩, rfl⟩ | ⟨hnone, rfl⟩
    · exact .inr ⟨id', fresh', isNew', rfl⟩
    · exact .inl ⟨hnone, rfl⟩
  · exact .inl ⟨hels, rfl⟩

/-- The rule of such calls speaks of the addresses in the prefixes. -/
theorem firstPeer_blockCalls {kind : Str} {isV6 constant b : Bool} {index : Nat}
    {rule : NftSet → Rule} {els : List SetElement} (ht : chain.table = filterTableName)
    (h : blockCalls chain chainName kind isV6 index constant rule els es) (hsets : k.HoldsSets es)
    (hrule : ∀ set, firstPeer bo k pkt [(rule set).content] = (pkt.peer d).bind fun a =>
      if a.is4 = !isV6 ∧ k.lookupSet filterTableName set.name a.asSlice = true then some b
      else none) :
    firstPeer bo k pkt ((rulesOf es).map Rule.content) = (pkt.peer d).bind fun a =>
      if a.is4 = !isV6 ∧ setContains true els a.asSlice = true then some b else none := by
  obtain ⟨id, fresh, isNew, rfl⟩ := h
  have hlookup : ∀ key, k.lookupSet filterTableName ((ipBlockSet chain.table chainName kind
      (addressFamily isV6) index constant).short id).name key = setContains true els key := by
    intro key
    rw [← ht]
    exact (hsets _ _ _ (List.mem_cons_self ..) ht).lookup key
  refine (hrule _).trans ?_
  simp only [hlookup]

include hd in
/-- The rules of one version of an IP block. -/
theorem firstPeer_applyPrefixes {cidr : Str} {index : Nat} {els exceptEls : List SetElement}
    {isV6 : Bool} (ht : chain.table = filterTableName)
    (h : Exec (applyPrefixes bo chainName chain policyName cidr index els exceptEls isV6) es u)
    (hsets : k.HoldsSets es) :
    firstPeer bo k pkt ((rulesOf es).map Rule.content) =
      if els = [] then none
      else (pkt.peer d).bind fun a =>
        if a.is4 = !isV6 then
          if setContains true exceptEls a.asSlice then some false
          else if setContains true els a.asSlice then some true else none
        else none := by
  rcases exec_applyPrefixes h with ⟨hels, rfl⟩ | ⟨hels, es₁, es₂, rfl, hexcept, hblock⟩
  · rw [if_pos hels]
    rfl
  · rw [if_neg hels, rulesOf_append, List.map_append, firstPeer_append,
      firstPeer_blockCalls ht hblock (hsets.mono (List.subset_append_right ..))
        (firstPeer_peerRule hd isV6 _)]
    -- the exceptions stand in front of the block
    have hfirst : firstPeer bo k pkt ((rulesOf es₁).map Rule.content) = (pkt.peer d).bind fun a =>
        if a.is4 = !isV6 ∧ setContains true exceptEls a.asSlice = true then some false
        else none := by
      rcases hexcept with ⟨rfl, rfl⟩ | hexcept
      · cases pkt.peer d with
        | none => rfl
        | some a => exact (if_neg fun hc => Bool.false_ne_true hc.2).symm
      · exact firstPeer_blockCalls ht hexcept (hsets.mono (List.subset_append_left ..))
          (firstPeer_exceptRule hd isV6 _)
    rw [hfirst]
    cases pkt.peer d with
    | none => rfl
    | some a =>
      simp only [Option.bind_some]
      by_cases hv : a.is4 = !isV6
      · simp only [hv, true_and, if_true]
        split <;> simp
      · simp [hv]

/-- The elements of one prefix are of its version. -/
theorem elements_of_prefix {cidr : Str} {els : List SetElement × List SetElement}
    (h : getPrefixesAsSetInterval [cidr] = .ok els) :
    ∃ p, NetIP.parsePrefix cidr = some p ∧
      ∀ is4 : Bool, (if is4 then els.1 else els.2) = [] ↔ ¬ p.is4 = is4 := by
  obtain ⟨p, rest, hp, hrest, hels⟩ := prefixesFrom_cons_eq_ok h
  obtain rfl := Except.ok.inj hrest
  refine ⟨p, hp, fun is4 => ?_⟩
  have hne : prefixElements 0 p ≠ [] := List.cons_ne_nil _ _
  rw [hels is4, ite_self, List.append_nil]
  split
  · rename_i heq
    exact iff_of_false hne fun hc => hc heq
  · rename_i heq
    exact iff_of_true rfl heq

include hd in
/-- The rules of an IP block answer as its sets do. -/
theorem firstPeer_ipBlock {block : IPBlock} {index : Nat} (ht : chain.table = filterTableName)
    (h : Exec (applyPolicyPeersRulesIPBlock bo chainName chain policyName block index) es u)
    (hsets : k.HoldsSets es) :
    firstPeer bo k pkt ((rulesOf es).map Rule.content) = (pkt.peer d).bind block.setAnswer := by
  unfold applyPolicyPeersRulesIPBlock at h
  simp only [exec_bind, exec_wrapErr, exec_ofExcept] at h
  obtain ⟨except, _, _, ⟨hexcept, rfl⟩, ⟨els, _, _, ⟨hels, rfl⟩, ⟨_, es₄, es₆, h₄, h₆, rfl⟩, rfl⟩,
    rfl⟩ := h
  obtain ⟨p, hp, hversion⟩ := elements_of_prefix hels
  rw [List.nil_append, List.nil_append] at hsets ⊢
  rw [rulesOf_append, List.map_append, firstPeer_append,
    firstPeer_applyPrefixes hd ht h₄ (hsets.mono (List.subset_append_left ..)),
    firstPeer_applyPrefixes hd ht h₆ (hsets.mono (List.subset_append_right ..))]
  cases hpeer : pkt.peer d with
  | none => simp
  | some a =>
    have hin := inPrefixSet_eq hexcept a
    have hcidr := setContains_unbroken hels (unbrokenPrefixes_singleton block.cidr)
      (Packet.zone_peer hpeer)
    have hempty := hversion a.is4
    simp only [Option.bind_some, IPBlock.setAnswer, hp, Option.any_some]
    -- only the rules of the version of the address can match
    cases h4 : a.is4 with
    | true =>
      simp only [h4, if_true] at hin hcidr hempty
      by_cases hv : p.is4 = true <;> simp [hin, hcidr, hempty, hv]
    | false =>
      simp only [h4, Bool.false_eq_true, if_false] at hin hcidr hempty
      by_cases hv : p.is4 = false <;> simp [hin, hcidr, hempty, hv]

/-- A block whose exceptions do not break each other says what it lists. -/
theorem IPBlock.setAnswer_eq {block : IPBlock} {els : List SetElement × List SetElement}
    (h : getPrefixesAsSetInterval block.except = .ok els)
    (hunbroken : UnbrokenPrefixes block.except)
    {a : NetIP.Addr} (hzone : a.zone = []) : block.setAnswer a = block.answer a := by
  rw [setAnswer, answer, inPrefixSet_eq h, setContains_unbroken h hunbroken hzone]

/-- The key of a plain address is the address. -/
theorem ipKey_eq_iff {ip : Str} (hplain : isPlainAddress ip = true) {a : NetIP.Addr}
    (hzone : a.zone = []) :
    isIPv4Text ip = a.is4 ∧ ipKey ip = a.asSlice ↔ NetIP.parseAddr ip = some a := by
  obtain ⟨b, hb⟩ := Option.isSome_iff_exists.1 (isSome_of_plain hplain)
  have htext : isIPv4Text ip = b.is4 := by rw [isIPv4Text, hb, Option.any_some]
  have hkey : ipKey ip = b.asSlice ∧ b.zone = [] := by
    rw [isPlainAddress, hb] at hplain
    rw [ipKey, NetIP.parseIP, hb]
    cases b with
    | v4 x => simp only [to4_mapped, NetIP.Addr.asSlice, NetIP.Addr.zone, and_self]
    | v6 x zone =>
      rw [Bool.and_eq_true, List.isEmpty_iff, Option.isNone_iff_eq_none] at hplain
      obtain ⟨rfl, hnone⟩ := hplain
      simp only [hnone, NetIP.Addr.asSlice, NetIP.Addr.zone, and_self]
  rw [hkey.1, htext, hb, Option.some.injEq]
  constructor
  · rintro ⟨h4, hslice⟩
    have hbzone := hkey.2
    rw [asSlice_eq, asSlice_eq, h4] at hslice
    have hnumber := NetIP.beBytes_inj (h4 ▸ addrNumber_lt b) (addrNumber_lt a) hslice
    -- version, number and zone make the address
    cases a with
    | v4 x =>
      cases b with
      | v4 y => exact congrArg _ (BitVec.eq_of_toNat_eq hnumber)
      | v6 y zone' => cases h4
    | v6 x zone =>
      cases b with
      | v4 y => cases h4
      | v6 y zone' =>
        obtain rfl : zone = [] := hzone
        obtain rfl : zone' = [] := hbzone
        exact congrArg (NetIP.Addr.v6 · []) (BitVec.eq_of_toNat_eq hnumber)
  · rintro rfl
    exact ⟨rfl, rfl⟩

include hd in
/-- The rule of some addresses speaks of those in its set. -/
theorem firstPeer_addressCalls {peer : MultiNetworkPolicyPeer} {index : Nat} {addrs : List Str}
    (ht : chain.table = filterTableName)
    (h : AddressCalls bo chainName chain policyName peer index addrs es) (hsets : k.HoldsSets es) :
    firstPeer bo k pkt ((rulesOf es).map Rule.content) = (pkt.peer d).bind fun a =>
      if inAddressSet addrs a then some true else none := by
  cases h with
  | none => cases pkt.peer d <;> rfl
  | set addr rest id fresh isNew =>
    have hlookup : ∀ key, k.lookupSet filterTableName
        (selectorSetOf chain.table chainName peer index (isV6Key addr) id).name key =
          setContains false ((addr :: rest).map fun ip => ⟨ipKey ip, false, []⟩) key := by
      intro key
      rw [← ht]
      exact (hsets _ _ _ (List.mem_cons_self ..) ht).lookup key
    refine (firstPeer_peerRule hd (isV6Key addr) _ _).trans ?_
    cases pkt.peer d with
    | none => rfl
    | some a =>
      simp only [Option.bind_some, hlookup]
      refine ite_congr (propext ?_) (fun _ => rfl) fun _ => rfl
      rw [inAddressSet, List.head?_cons, Option.any_some, Bool.and_eq_true, beq_iff_eq, setContains,
        if_neg Bool.false_ne_true, List.any_map]
      rfl

/-- The set of plain addresses of one version. -/
theorem inAddressSet_eq (isV6 : Bool) {addrs : List Str}
    (hplain : ∀ ip ∈ addrs, isPlainAddress ip = true)
    (hversion : ∀ ip ∈ addrs, isIPv4Text ip = !isV6) {a : NetIP.Addr} (hzone : a.zone = []) :
    inAddressSet addrs a = addrs.any fun ip => NetIP.parseAddr ip == some a := by
  cases addrs with
  | nil => rfl
  | cons addr rest =>
    have hkey : isV6Key addr = isV6 := by
      have hv := hversion addr (List.mem_cons_self ..)
      rw [isV6Key_of_plain (hplain addr (List.mem_cons_self ..)), hv, Bool.not_not]
    rw [inAddressSet, List.head?_cons, Option.any_some, hkey, Bool.eq_iff_iff, Bool.and_eq_true,
      beq_iff_eq, List.any_eq_true, List.any_eq_true]
    simp only [beq_iff_eq]
    constructor
    · rintro ⟨h4, ip, hip, hslice⟩
      exact ⟨ip, hip, (ipKey_eq_iff (hplain ip hip) hzone).1
        ⟨(hversion ip hip).trans h4.symm, hslice⟩⟩
    · rintro ⟨ip, hip, hparse⟩
      obtain ⟨h4, hslice⟩ := (ipKey_eq_iff (hplain ip hip) hzone).2 hparse
      exact ⟨h4.symm.trans (hversion ip hip), ip, hip, hslice⟩

theorem ite_some_or {α : Type} {P Q : Prop} [Decidable P] [Decidable Q] (x : α) :
    (if P then some x else none).or (if Q then some x else none) =
      if P ∨ Q then some x else none := by
  by_cases hP : P
  · rw [if_pos hP, Option.some_or, if_pos (Or.inl hP)]
  · rw [if_neg hP, Option.none_or]
    exact ite_congr (propext (or_iff_right hP).symm) (fun _ => rfl) fun _ => rfl

variable {deps : PolicyDeps} {podInfo : PodInfo} {networks : List Str}

/-- The addresses of a selector, for a pod that is on the networks itself. -/
theorem mem_selectedAddresses {peer : MultiNetworkPolicyPeer}
    {podSelector nsSelector : Option Selector} {pods : List Pod}
    (hpod : optionalSelector peer.podSelector = .ok podSelector)
    (hns : optionalSelector peer.namespaceSelector = .ok nsSelector)
    (hpods : deps.listPods (podSelector.getD []) = .ok pods)
    (hcheck : podInfo.checkPolicyNetwork networks = true) {ip : Str} :
    ip ∈ deps.selectedAddresses podInfo networks peer ↔
      ∃ sPod ∈ pods, deps.contributes podInfo networks nsSelector sPod ip := by
  have hmatch : ∀ labels, (nsSelector.any fun s => !s.isMatch labels) = false ↔
      nsSelector.all (fun s => s.isMatch labels) = true := by
    intro labels
    cases nsSelector with
    | none => simp
    | some s => simp
  simp only [PolicyDeps.selectedAddresses, hpod, hns, hpods, List.mem_flatMap, List.mem_filter,
    PolicyDeps.selectedInfos, List.mem_filterMap, Option.ite_none_right_eq_some,
    Option.any_eq_true, List.mem_append, PolicyDeps.contributes, PodInfo.contributes_iff, hcheck,
    hmatch, true_and]
  constructor
  · rintro ⟨info, ⟨⟨sPod, hmem, ⟨labels, hlabels, hsel⟩, hinfo⟩, hon⟩, hip⟩
    exact ⟨sPod, hmem, labels, hlabels, hsel, info, hinfo, hon, hip⟩
  · rintro ⟨sPod, hmem, labels, hlabels, hsel, info, hinfo, hon, hip⟩
    exact ⟨info, ⟨⟨sPod, hmem, ⟨labels, hlabels, hsel⟩, hinfo⟩, hon⟩, hip⟩

/-- The calls for a selector peer. -/
theorem exec_selector {peer : MultiNetworkPolicyPeer} {index : Nat}
    (h : Exec (applyPolicyPeersRulesSelector bo deps chainName chain policyName peer podInfo
      networks index) es u) :
    ∃ addrs, selectorAddresses deps chainName index podInfo networks peer = .ok addrs ∧
      ∃ es₄ es₆, es = es₄ ++ es₆ ∧
        AddressCalls bo chainName chain policyName peer index (addrs.filter isIPv4Text) es₄ ∧
        AddressCalls bo chainName chain policyName peer index
          (addrs.filter fun ip => !isIPv4Text ip) es₆ := by
  rw [applyPolicyPeersRulesSelector_eq, exec_bind] at h
  obtain ⟨addrs, _, es', haddrs, h, rfl⟩ := h
  obtain ⟨hok, rfl⟩ := exec_ofExcept.1 haddrs
  obtain ⟨-, es₄, es₆, rfl, h₄, h₆⟩ := exec_addIPRules (exec_wrapErr.1 h)
  exact ⟨addrs, hok, es₄, es₆, rfl, h₄, h₆⟩

include hd in
/-- The rules of a peer say what its sets have. -/
theorem firstPeer_applyPolicyPeer {peer : MultiNetworkPolicyPeer} {index : Nat}
    (ht : chain.table = filterTableName)
    (h : Exec (applyPolicyPeer bo deps chainName chain policyName podInfo networks index peer) es u)
    (hsets : k.HoldsSets es) :
    firstPeer bo k pkt ((rulesOf es).map Rule.content) = (pkt.peer d).bind fun a =>
      peer.setAnswer deps podInfo networks chainName a index := by
  unfold applyPolicyPeer at h
  cases hblock : peer.ipBlock with
  | some block =>
    simp only [hblock, exec_wrapErr] at h
    simp only [MultiNetworkPolicyPeer.setAnswer, hblock]
    exact firstPeer_ipBlock hd ht h hsets
  | none =>
    simp only [hblock] at h
    simp only [MultiNetworkPolicyPeer.setAnswer, hblock]
    split at h
    · obtain ⟨addrs, haddrs, es₄, es₆, rfl, h₄, h₆⟩ := exec_selector (exec_wrapErr.1 h)
      rw [rulesOf_append, List.map_append, firstPeer_append,
        firstPeer_addressCalls hd ht h₄ (hsets.mono (List.subset_append_left ..)),
        firstPeer_addressCalls hd ht h₆ (hsets.mono (List.subset_append_right ..)), haddrs]
      cases pkt.peer d with
      | none => rfl
      | some a =>
        -- two groups of addresses, and a hit in one of them is a hit
        simp only [Option.bind_some, ite_some_or, Bool.or_eq_true]
        rfl
    · exact absurd h exec_fail

include hd in
/-- The rules of the peers, in their order. -/
theorem firstPeer_forEach (ht : chain.table = filterTableName)
    {peers : List MultiNetworkPolicyPeer} {n : Nat}
    (h : Exec (forEach (applyPolicyPeer bo deps chainName chain policyName podInfo
      networks) n peers)
      es u)
    (hsets : k.HoldsSets es) :
    firstPeer bo k pkt ((rulesOf es).map Rule.content) = (pkt.peer d).bind fun a =>
      (peers.zipIdx n).findSome? fun x => x.1.setAnswer deps podInfo networks chainName a x.2 := by
  induction peers generalizing n es with
  | nil =>
    obtain ⟨-, rfl⟩ := exec_pure.1 h
    cases pkt.peer d <;> rfl
  | cons peer peers ih =>
    obtain ⟨_, es₁, es₂, h₁, h₂, rfl⟩ := exec_bind.1 h
    rw [rulesOf_append, List.map_append, firstPeer_append,
      firstPeer_applyPolicyPeer hd ht h₁ (hsets.mono (List.subset_append_left ..)),
      ih h₂ (hsets.mono (List.subset_append_right ..)), List.zipIdx_cons]
    cases pkt.peer d with
    | none => rfl
    | some a =>
      simp only [Option.bind_some, List.findSome?_cons]
      cases peer.setAnswer deps podInfo networks chainName a n <;> rfl

/-- The sets of a selector have the plain addresses it stands for. -/
theorem setAnswer_selector {peer : MultiNetworkPolicyPeer} {index : Nat}
    (h : Exec (applyPolicyPeersRulesSelector bo deps chainName chain policyName peer podInfo
      networks index) es u)
    (hdeps : deps.Plain) (hinfo : podInfo.Plain)
    (hcheck : podInfo.checkPolicyNetwork networks = true) (hblock : peer.ipBlock = none)
    {a : NetIP.Addr} (hzone : a.zone = []) :
    peer.setAnswer deps podInfo networks chainName a index =
      peer.answer deps podInfo networks a := by
  unfold applyPolicyPeersRulesSelector at h
  simp only [exec_bind, exec_wrapErr, exec_ofExcept] at h
  obtain ⟨podSelector, _, _, ⟨hpod, rfl⟩, ⟨pods, _, _, ⟨hpods, rfl⟩,
    ⟨nsSelector, _, es', ⟨hns, rfl⟩,
    -, rfl⟩, rfl⟩, rfl⟩ := h
  have haddrs : (selectorAddresses deps chainName index podInfo networks peer).toOption.getD [] =
      selectorIPs deps chainName index podInfo networks nsSelector pods := by
    rw [selectorAddresses, hpod]
    change (((deps.listPods (podSelector.getD [])).mapError _ >>= _).toOption).getD [] = _
    rw [hpods, hns]
    rfl
  -- the loop finds what the selectors denote
  have hmem : ∀ ip, ip ∈ selectorIPs deps chainName index podInfo networks nsSelector pods ↔
      ip ∈ deps.selectedAddresses podInfo networks peer := fun ip =>
    mem_selectorIPs.trans (mem_selectedAddresses hpod hns hpods hcheck).symm
  have hplain : ∀ ip ∈ selectorIPs deps chainName index podInfo networks nsSelector pods,
      isPlainAddress ip = true := by
    intro ip hip
    obtain ⟨sPod, -, hcontributes⟩ := mem_selectorIPs.1 hip
    exact plain_of_contributes hdeps hinfo hcontributes
  simp only [MultiNetworkPolicyPeer.setAnswer, MultiNetworkPolicyPeer.answer, hblock, haddrs]
  -- each of the two groups answers for the addresses in it
  rw [inAddressSet_eq false (fun ip hip => hplain ip (List.mem_of_mem_filter hip))
      (fun ip hip => by simpa using (List.mem_filter.1 hip).2) hzone,
    inAddressSet_eq true (fun ip hip => hplain ip (List.mem_of_mem_filter hip))
      (fun ip hip => by simpa using (List.mem_filter.1 hip).2) hzone]
  refine ite_congr (propext ?_) (fun _ => rfl) fun _ => rfl
  simp only [Bool.or_eq_true, List.any_eq_true, List.mem_filter, hmem, Bool.not_eq_true']
  constructor
  · rintro (⟨ip, ⟨hip, -⟩, hparse⟩ | ⟨ip, ⟨hip, -⟩, hparse⟩) <;> exact ⟨ip, hip, hparse⟩
  · rintro ⟨ip, hip, hparse⟩
    cases htext : isIPv4Text ip with
    | true => exact .inl ⟨ip, ⟨hip, htext⟩, hparse⟩
    | false => exact .inr ⟨ip, ⟨hip, htext⟩, hparse⟩

/-- **Plain peers** say what they list. -/
theorem findSome?_setAnswer (hdeps : deps.Plain) (hinfo : podInfo.Plain)
    (hcheck : podInfo.checkPolicyNetwork networks = true) {a : NetIP.Addr} (hzone : a.zone = [])
    {peers : List MultiNetworkPolicyPeer} {n : Nat}
    (h : Exec (forEach (applyPolicyPeer bo deps chainName chain policyName podInfo
      networks) n peers)
      es u)
    (hunbroken : ∀ peer ∈ peers, ∀ block, peer.ipBlock = some block →
      UnbrokenPrefixes block.except) :
    ((peers.zipIdx n).findSome? fun x => x.1.setAnswer deps podInfo networks chainName a x.2) =
      peers.findSome? (MultiNetworkPolicyPeer.answer deps podInfo networks a) := by
  induction peers generalizing n es with
  | nil => rfl
  | cons peer peers ih =>
    rw [List.forall_mem_cons] at hunbroken
    obtain ⟨_, es₁, es₂, h₁, h₂, rfl⟩ := exec_bind.1 h
    have hpeer : peer.setAnswer deps podInfo networks chainName a n =
        peer.answer deps podInfo networks a := by
      unfold applyPolicyPeer at h₁
      cases hblock : peer.ipBlock with
      | some block =>
        simp only [hblock, exec_wrapErr, applyPolicyPeersRulesIPBlock, exec_bind,
          exec_ofExcept] at h₁
        obtain ⟨els, _, _, ⟨hels, -⟩, -⟩ := h₁
        simp only [MultiNetworkPolicyPeer.setAnswer, MultiNetworkPolicyPeer.answer, hblock]
        exact IPBlock.setAnswer_eq hels (hunbroken.1 block hblock) hzone
      | none =>
        simp only [hblock] at h₁
        split at h₁
        · exact setAnswer_selector (exec_wrapErr.1 h₁) hdeps hinfo hcheck hblock hzone
        · exact absurd h₁ exec_fail
    rw [List.zipIdx_cons, List.findSome?_cons, List.findSome?_cons, hpeer, ih h₂ hunbroken.2]

end Peers

/-! ### The chains of a rule -/

theorem rulesOf_callsIn (t c : Str) (es : List Event) :
    rulesOf (callsIn t c es) = (rulesOf es).filter (Rule.inChain t c) := by
  induction es with
  | nil => rfl
  | cons e es ih =>
    have hhead : rulesOf (callsIn t c [e]) = (rulesOf [e]).filter (Rule.inChain t c) := by
      cases e with
      | rule r action force isNew =>
        show rulesOf (List.filter (Event.inChain t c) [.rule r action force isNew]) =
          List.filter (Rule.inChain t c) [r]
        rw [List.filter_singleton, List.filter_singleton, Event.inChain]
        cases Rule.inChain t c r <;> rfl
      | _ => rfl
    rw [← List.singleton_append, callsIn_append, rulesOf_append, rulesOf_append, List.filter_append,
      hhead, ih]

/-- The rules that are asked for in a chain, as they are listed. -/
def listedIn (c : Str) (es : List Event) : List Rule :=
  (rulesOf (callsIn filterTableName c es)).map Rule.content

/-- The listed rules of two executions. -/
theorem listedIn_append (c : Str) (es₁ es₂ : List Event) :
    listedIn c (es₁ ++ es₂) = listedIn c es₁ ++ listedIn c es₂ := by
  rw [listedIn, callsIn_append, rulesOf_append, List.map_append]
  rfl

/-- Calls that are all for one chain. -/
theorem listedIn_eq {P : Rule → Prop} {c : Str} {es : List Event}
    (h : ∀ e ∈ es, e.Calls P) (hP : ∀ r, P r → r.InFilter c) :
    listedIn c es = (rulesOf es).map Rule.content := by
  rw [listedIn, rulesOf_callsIn, List.filter_eq_self.2]
  intro r hr
  obtain ⟨action, force, isNew, he⟩ := mem_rulesOf.1 hr
  exact Rule.inChain_iff.2 (hP r (h _ he))

/-- Calls that are all for another chain. -/
theorem listedIn_eq_nil {P : Rule → Prop} {c : Str} {es : List Event}
    (h : ∀ e ∈ es, e.Calls P) (hP : ∀ r, P r → ∃ c', r.InFilter c' ∧ c' ≠ c) :
    listedIn c es = [] := by
  rw [listedIn, callsIn_eq_nil_of_calls h hP]
  rfl

section Chains

variable {bo : ByteOrder} {k : Kernel} {pkt : Packet} {d : Direction} {deps : PolicyDeps}
  {podInfo : PodInfo} {networks : List Str} {chainName policyName : Str} {chain : Chain}
  {es : List Event} {u : Unit} {index : Nat}

/-- The calls for the peers of a rule. -/
theorem exec_peers {peers : List MultiNetworkPolicyPeer}
    (h : Exec (applyPolicyPeersRules bo deps chainName chain policyName peers podInfo
      networks index)
      es u) :
    ∃ peersChain es' u', Exec (forEach (applyPolicyPeer bo deps (peersChainName chainName index)
      peersChain policyName podInfo networks) 0 peers) es' u' := by
  unfold applyPolicyPeersRules at h
  simp only [exec_bind, exec_wrapErr] at h
  obtain ⟨peersChain, _, _, -, ⟨_, _, _, -, ⟨_, es', _, h', -, -⟩, -⟩, -⟩ := h
  exact ⟨peersChain, es', _, h'⟩

/-- **The peers chain of a rule** answers as the sets of its peers do. -/
theorem firstPeer_peers {peers : List MultiNetworkPolicyPeer}
    (hd : isIngressChain (peersChainName chainName index) = decide (d = .ingress))
    (ht : chain.table = filterTableName) (hne : chain.name ≠ (peersChainOf chainName index).name)
    (h : Exec (applyPolicyPeersRules bo deps chainName chain policyName peers podInfo
      networks index)
      es u)
    (hsets : k.HoldsSets es) :
    firstPeer bo k pkt (listedIn (peersChainOf chainName index).name es) =
      if peers = [] then some true
      else (pkt.peer d).bind fun a => peers.zipIdx.findSome? fun x =>
        x.1.setAnswer deps podInfo networks (peersChainName chainName index) a x.2 := by
  have hchain : (Chain.short ⟨chain.table, peersChainName chainName index, none⟩) =
      peersChainOf chainName index := by
    rw [ht]
    rfl
  unfold applyPolicyPeersRules at h
  simp only [exec_bind, exec_wrapErr, exec_addChain, exec_updateRule, exec_when, exec_pure,
    List.length_eq_zero_iff] at h
  obtain ⟨_, _, _, ⟨rfl, rfl⟩, ⟨isNew, _, _, rfl, ⟨_, es₁, es₂, h₁, h₂, rfl⟩, rfl⟩, rfl⟩ := h
  rw [hchain] at h₁ h₂ hsets ⊢
  -- the jump stands in the chain of the policy
  have hjump : listedIn (peersChainOf chainName index).name
      [.rule (policyJumpRule chainName chain policyName (peersChainOf chainName index)) .addRule
        false isNew] = [] := by
    refine listedIn_eq_nil (P := fun r => r.InFilter chain.name) ?_ fun r hr => ⟨_, hr, hne⟩
    rintro e he
    obtain rfl := List.mem_singleton.1 he
    exact ⟨ht, rfl⟩
  have hsub₁ : es₁ ⊆ [.chain (peersChainOf chainName index)] ++
      ([.rule (policyJumpRule chainName chain policyName (peersChainOf chainName index)) .addRule
        false isNew] ++ (es₁ ++ es₂)) := by
    intro e he
    simp [he]
  -- what the peers ask for is all in their chain
  have hrest : listedIn (peersChainOf chainName index).name es₁ =
      (rulesOf es₁).map Rule.content := by
    refine listedIn_eq (fun e he => ?_) fun r hr => hr
    exact (calls_of_emits h₁
      (emits_forEach _ _ fun j x _ hx => emits_applyPolicyPeer rfl hx) e he).calls.mono
      fun r hr => hr.1
  rw [listedIn_append, listedIn_append, listedIn_append, hjump, hrest, firstPeer_append,
    firstPeer_append, firstPeer_append, firstPeer_forEach hd rfl h₁ (hsets.mono hsub₁)]
  show ((pkt.peer d).bind _).or _ = _
  rcases h₂ with ⟨hnil, all, _, _, rfl, ⟨-, rfl⟩, rfl⟩ | ⟨hpeers, rfl⟩
  · -- the rule that accepts every peer
    have hshape : AllPeersRule bo (acceptAllRule bo (peersChainName chainName index)
        (peersChainOf chainName index) policyName (str "peers") peerRuleMark).content := rfl
    have hin : listedIn (peersChainOf chainName index).name
        ([.rule (acceptAllRule bo (peersChainName chainName index) (peersChainOf chainName index)
          policyName (str "peers") peerRuleMark) .addRule false all] ++ []) =
        [(acceptAllRule bo (peersChainName chainName index)
          (peersChainOf chainName index) policyName (str "peers") peerRuleMark).content] := by
      rw [List.append_nil, listedIn_eq (P := fun r => r.InFilter _) ?_ fun r hr => hr]
      · rfl
      · intro e he
        obtain rfl := List.mem_singleton.1 he
        exact ⟨rfl, rfl⟩
    rw [hin, firstPeer_singleton, hshape.isHit_eq, hshape.isDrop_eq, hnil, if_pos rfl]
    cases pkt.peer d <;> rfl
  · rw [if_neg hpeers]
    exact Option.or_none

/-- The rules that an execution asks for in a chain, as they are listed. -/
theorem mem_listedIn {c : Str} {r : Rule} :
    r ∈ listedIn c es ↔ ∃ x ∈ rulesOf es, x.InFilter c ∧ x.content = r := by
  rw [listedIn, rulesOf_callsIn, List.mem_map]
  simp only [List.mem_filter, Rule.inChain_iff, Rule.InFilter, and_assoc]

/-- Which packets the rule of a port set matches. -/
theorem isHit_portRule {protocol : Protocol} (hp : protocol ∈ portProtocols) (id : Nat) :
    (portRuleOf bo chainName policyName index protocol id).content.isHit bo k pkt = true ↔
      ∃ q, pkt.destination = some (protocol, q) ∧
        k.lookupSet filterTableName (portSetName chainName index protocol) (NetIP.beBytes 2 q) =
          true := by
  have hexprs : (portRuleOf bo chainName policyName index protocol id).content.exprs =
      portIn (getProtocolInfo protocol).2 (portSetOf chainName index protocol 0) ++
        setMark bo portRuleMark := rfl
  rw [Packet.exists_destination_iff hp fun bytes => k.lookupSet filterTableName
      (portSetName chainName index protocol) bytes = true, Rule.isHit,
    Rule.guards_eq (by rfl) rfl hexprs, holds_portIn, Bool.and_eq_true, decide_eq_true_eq,
    Option.any_eq_true]
  rfl

/-- The ports of a rule that mean what they list: of known protocols, no range breaks another, and
entries without protocol and port do not stand beside others. -/
def PlainPorts (ports : List MultiNetworkPolicyPort) : Prop :=
  (∀ entry ∈ ports, entry.protocol.getD .tcp ∈ portProtocols) ∧
    (∀ protocol ∈ portProtocols, Unbroken (rangesFor ports protocol)) ∧
    ((∀ entry ∈ ports, ¬ entry.IsWildcard) ∨ ∀ entry ∈ ports, entry.IsWildcard)

instance (ports : List MultiNetworkPolicyPort) : Decidable (PlainPorts ports) :=
  inferInstanceAs (Decidable (_ ∧ _ ∧ _))

/-- The rules of a ports chain that match, by the elements of their sets. -/
theorem exists_isHit_ports {els : Protocol → List SetElement} {rules : List Rule}
    (hcalls : PortsCalls bo chainName chain policyName index els es) (hsets : k.HoldsSets es)
    (hne : chain.name ≠ (portsChainOf chainName index).name)
    (hrules : ∀ r, r ∈ rules ↔ r ∈ listedIn (portsChainOf chainName index).name es) :
    rules.any (Rule.isHit bo k pkt) = true ↔ (∀ protocol ∈ portProtocols, els protocol = []) ∨
      ∃ protocol q, pkt.destination = some (protocol, q) ∧
        setContains true (els protocol) (NetIP.beBytes 2 q) = true := by
  -- the committed sets hold what the calls wanted
  have hlookup : ∀ protocol id fresh,
      .set (portSetOf chainName index protocol id) (els protocol) fresh ∈ es → ∀ key,
      k.lookupSet filterTableName (portSetName chainName index protocol) key =
        setContains true (els protocol) key :=
    fun protocol id fresh he key => (hsets _ _ _ he rfl).lookup key
  rw [List.any_eq_true]
  constructor
  · rintro ⟨r, hr, hhit⟩
    obtain ⟨x, hx, hin, rfl⟩ := mem_listedIn.1 ((hrules r).1 hr)
    rcases hcalls.rule_of_mem x hx with rfl | ⟨protocol, hp, hels, id, rfl⟩ | ⟨hall, -⟩
    · exact absurd hin.2 hne
    · obtain ⟨q, hq, hset⟩ := (isHit_portRule hp id).1 hhit
      obtain ⟨id', ⟨fresh, he⟩, -⟩ := hcalls.protocol_mem protocol hp hels
      rw [hlookup protocol id' fresh he] at hset
      exact .inr ⟨protocol, q, hq, hset⟩
    · exact .inl hall
  · rintro (hall | ⟨protocol, q, hq, hset⟩)
    · refine ⟨_, (hrules _).2 (mem_listedIn.2 ⟨_, hcalls.all_mem hall, ⟨rfl, rfl⟩, rfl⟩), ?_⟩
      exact isHit_allPortsRule
    · have hp := (Packet.goesTo_of_destination hq).1
      have hels : els protocol ≠ [] := by
        intro hnil
        rw [hnil] at hset
        cases hset
      obtain ⟨id, ⟨fresh, he⟩, hmem⟩ := hcalls.protocol_mem protocol hp hels
      refine ⟨_, (hrules _).2 (mem_listedIn.2 ⟨_, hmem, ⟨rfl, rfl⟩, rfl⟩), ?_⟩
      refine (isHit_portRule hp id).2 ⟨q, hq, ?_⟩
      rw [hlookup protocol id fresh he]
      exact hset

/-- **The ports chain of a rule** lets through what the sets of its ports have. -/
theorem any_isHit_ports {ports : List MultiNetworkPolicyPort} {rules : List Rule}
    (ht : chain.table = filterTableName) (hne : chain.name ≠ (portsChainOf chainName index).name)
    (h : Exec (applyPolicyPortsRules bo chainName chain policyName ports index) es u)
    (hsets : k.HoldsSets es)
    (hrules : ∀ r, r ∈ rules ↔ r ∈ listedIn (portsChainOf chainName index).name es) :
    rules.any (Rule.isHit bo k pkt) = portSetsAdmit ports pkt.destination := by
  obtain ⟨g, hg, hcalls⟩ := portsCalls_of_exec ht h
  rw [Bool.eq_iff_iff, exists_isHit_ports hcalls hsets hne hrules, portSetsAdmit, hg]
  simp only [Except.toOption, Option.any_some, Bool.or_eq_true, List.all_eq_true, List.isEmpty_iff,
    Option.any_eq_true, Prod.exists]

/-- **Plain ports** admit what they list. -/
theorem portSetsAdmit_eq {ports : List MultiNetworkPolicyPort} {g : PortElements}
    (hg : collectPorts ports = .ok g) (hplain : PlainPorts ports)
    (hport : ∀ protocol, pkt.destination ≠ some (protocol, 0)) :
    portSetsAdmit ports pkt.destination = decide (portsAdmit ports pkt.destination) := by
  obtain ⟨hprotocols, hunbroken, hwild⟩ := hplain
  obtain ⟨haccepted, hels⟩ := collectPorts_eq_ok hg hprotocols
  have hempty : (∀ protocol ∈ portProtocols, g.of protocol = []) ↔
      ∀ entry ∈ ports, entry.IsWildcard := by
    rw [← rangesFor_eq_nil_iff haccepted hprotocols]
    refine forall₂_congr fun protocol hp => ?_
    rw [hels protocol hp, List.flatMap_eq_nil_iff, List.eq_nil_iff_forall_not_mem]
    refine forall_congr' fun r => ⟨fun hr hmem => ?_, fun hr hmem => absurd hmem hr⟩
    exact List.cons_ne_nil _ _ (hr hmem)
  rw [Bool.eq_iff_iff, decide_eq_true_eq, portSetsAdmit, hg, portsAdmit]
  simp only [Except.toOption, Option.any_some, Bool.or_eq_true, List.all_eq_true, List.isEmpty_iff,
    Option.any_eq_true, hempty]
  cases hdest : pkt.destination with
  | none =>
    -- only the rule for all ports can match, and only such an entry admits the packet
    simp only [reduceCtorEq, false_and, exists_false, or_false, MultiNetworkPolicyPort.Admits]
    constructor
    · intro hall
      by_cases hnil : ports = []
      · exact .inl hnil
      · obtain ⟨entry, hmem⟩ := List.exists_mem_of_ne_nil ports hnil
        exact .inr ⟨entry, hmem, hall entry hmem⟩
    · rintro (rfl | ⟨entry, hmem, hentry⟩)
      · exact List.forall_mem_nil _
      · exact hwild.resolve_left fun hnone => hnone entry hmem hentry
  | some x =>
    obtain ⟨protocol, q⟩ := x
    obtain ⟨hp, -, hq⟩ := Packet.goesTo_of_destination hdest
    have hpos : 1 ≤ q := by
      have hzero := hport protocol
      rw [hdest] at hzero
      refine Nat.one_le_iff_ne_zero.2 ?_
      rintro rfl
      exact hzero rfl
    have hmarked : setContains true (g.of protocol) (NetIP.beBytes 2 q) = true ↔ _ :=
      setContains_rangesFor haccepted (fun y => by rw [hels protocol hp]) hq
    have hiff := (marked_iff_unbrokenPorts haccepted hprotocols).2
      ⟨hunbroken, hwild.imp_right .inl⟩ protocol hp q hq hpos
    simp only [Option.some.injEq, exists_eq_left', MultiNetworkPolicyPort.Admits]
    rw [← hiff, ← hmarked]

end Chains

end MultiNetPolicy
