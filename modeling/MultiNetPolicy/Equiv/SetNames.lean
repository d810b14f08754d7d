import MultiNetPolicy.Equiv.Contents
import MultiNetPolicy.Equiv.Names
import MultiNetPolicy.Lib.Text

/-!
# Set names

The names of the sets of a policy: one for each protocol of a rule's ports, and for each peer and
address family the prefixes and the exceptions of an `ipBlock`, or the addresses of a selector.  The
names are put together in four ways, from the name of a ports chain with underscores in the place of
dashes, or from the name of a peers chain, and fixed words, indices and hashes.

* `set_name_inj`: direction, rule, peer, family, protocol and selector can be read off a name.
* `setNames_distinct_iff`: when two sets of policies have the same name, hash collisions apart.
-/

namespace MultiNetPolicy

open ByteString

/-- The sets of a policy in one direction: `index` counts rules and `peer` the peers of a rule. -/
inductive SetRole where
  | ports (index : Nat) (protocol : { p : Protocol // p ∈ [.tcp, .udp, .sctp] })
  | ipBlock (index peer : Nat) (isExcept isV6 : Bool)
  | selector (index peer : Nat) (isV6 : Bool) (text : Str)
  deriving DecidableEq

/-- The index of the rule. -/
def SetRole.index : SetRole → Nat
  | ports i _ => i
  | ipBlock i _ _ _ => i
  | selector i _ _ _ => i

/-- A set of a policy. -/
structure SetUse where
  direction : Direction
  policy : MultiNetworkPolicy
  role : SetRole

namespace SetUse

/-- What tells the sets of a namespace apart. -/
def key (u : SetUse) : Direction × Str × SetRole := (u.direction, u.policy.name, u.role)

/-- The name of the policy's chain. -/
def chainName (u : SetUse) : Str := policyChainFullName u.direction.entry u.policy

/-- The set as it is given to `updateSet`. -/
def set (u : SetUse) : NftSet :=
  match u.role with
  | .ports i protocol =>
    Render.getInetSet (policyChainOf u.direction.entry u.policy)
      (Render.portsChainName u.chainName i) (getProtocolInfo protocol.1).1
  | .ipBlock i j isExcept isV6 =>
    Render.ipBlockSet filterTableName (Render.peersChainName u.chainName i)
      (if isExcept then peerIPBlockExceptPrefix else peerIPBlockPrefix) (addressFamily isV6) j
      (!isExcept)
  | .selector i j isV6 text =>
    Render.selectorSet filterTableName (Render.peersChainName u.chainName i) (addressFamily isV6) j
      (hashString text)

/-- The name of the set. -/
def name (u : SetUse) : Str := shortName u.set.name

/-- The room that the protocol leaves in the name of a ports set. -/
def protocolRoom (protocol : Protocol) : Nat :=
  nftNameMaxLen - (1 + (getProtocolInfo protocol).1.length)

/-- The names that may be cut on the way to the set's name, with the room they have. -/
def parts (u : SetUse) : List (Nat × Str) :=
  [(u.direction.room, policyRuleNamespacedName u.policy), (suffixRoom u.role.index, u.chainName)] ++
    match u.role with
    | .ports i protocol =>
      [(protocolRoom protocol.1, getSetName (Render.portsChainName u.chainName i))]
    | _ => []

/-- The names that are cut. -/
def cutNames (u : SetUse) : List Str := (u.parts.filter fun x => x.1 < x.2.length).map Prod.snd

/-- The selector whose hash is in the name. -/
def selectors (u : SetUse) : List Str :=
  match u.role with
  | .selector _ _ _ text => [text]
  | _ => []

/-- A part that does not fit is cut. -/
theorem mem_cutNames {u : SetUse} {room : Nat} {a : Str} (h : (room, a) ∈ u.parts)
    (hlen : room < a.length) : a ∈ u.cutNames := by
  unfold cutNames
  rw [List.mem_map]
  exact ⟨(room, a), List.mem_filter.2 ⟨h, decide_eq_true hlen⟩, rfl⟩

end SetUse

/-- The names of the sets that do not belong to a policy. -/
def baseSetNames : List Str :=
  [podInterfacesName, Render.ndpSet.name] ++ [protoIPv4, protoIPv6].flatMap fun proto =>
    [sourceAddressSuffix, destinationAddressSuffix].map fun suffix =>
      common ++ str "_" ++ proto ++ str "_" ++ suffix

/-! ### Names without underscores -/

/-- A string of characters that Kubernetes names have. -/
def NameLike (s : Str) : Prop := ∀ b ∈ s, isNameChar b = true

theorem isNameChar_of_isHex : ∀ b, isHex b = true → isNameChar b = true :=
  forall_uint8 (by decide +kernel)

namespace NameLike

theorem append {a b : Str} (ha : NameLike a) (hb : NameLike b) : NameLike (a ++ b) := by
  intro c hc
  rcases List.mem_append.1 hc with hc | hc
  · exact ha c hc
  · exact hb c hc

theorem cons {b : UInt8} {s : Str} (hb : isNameChar b = true) (hs : NameLike s) :
    NameLike (b :: s) := by
  intro c hc
  rcases List.mem_cons.1 hc with rfl | hc
  · exact hb
  · exact hs c hc

/-- Such texts need no replacement. -/
theorem clean {s : Str} (h : NameLike s) : Clean s :=
  fun b hb => isCleanChar_of_isNameChar b (h b hb)

/-- And no underscore, which set names are separated by. -/
theorem not_mem {s : Str} (h : NameLike s) : (0x5f : UInt8) ∉ s :=
  fun hb => absurd (h _ hb) (by decide)

theorem decimal (n : Nat) : NameLike (decimal n) :=
  fun b hb => isNameChar_of_isHex b (isHex_of_isDigit (isDigit_of_mem_decimal hb))

/-- Cutting puts a dash and a hash at the end. -/
theorem truncateNftName {s : Str} (h : NameLike s) {maxLen : Nat} (hmax : 9 < maxLen) :
    NameLike (truncateNftName s maxLen) := by
  rw [truncateNftName_of_clean h.clean hmax]
  split
  · exact h
  · refine append (fun b hb => h b (List.mem_of_mem_take hb)) (cons (by decide) fun b hb => ?_)
    exact isNameChar_of_isHex b (isHex_of_mem_hexPad hb)

end NameLike

/-- Names of policy chains have no underscore. -/
theorem nameLike_policyChainFullName (d : Direction) (p : MultiNetworkPolicy) :
    NameLike (policyChainFullName d.entry p) := by
  have hentry : NameLike (d.entry ++ str "-") := by
    refine List.all_eq_true.1 ?_
    cases d <;> decide
  have hname : NameLike (policyRuleNamespacedName p) := by
    refine NameLike.append (NameLike.append ?_ (List.all_eq_true.1 (by decide))) ?_
    · exact fun b hb => p.isNameChar_of_mem_namespace hb
    · exact fun b hb => p.isNameChar_of_mem_name hb
  rw [policyChainFullName_eq]
  exact hentry.append (hname.truncateNftName d.lt_room)

/-- The names of ports and peers chains. -/
theorem nameLike_indexed {a word : Str} (ha : NameLike a) (hword : NameLike word) (i : Nat) :
    NameLike (a ++ 0x2d :: word ++ 0x2d :: decimal i) :=
  (ha.append (.cons (by decide) hword)).append (.cons (by decide) (.decimal i))

/-- Replacing hyphens by underscores loses nothing where there are no underscores. -/
theorem getSetName_inj {a b : Str} (ha : NameLike a) (hb : NameLike b)
    (h : getSetName a = getSetName b) : a = b := by
  unfold getSetName replaceAll at h
  have hlen : a.length = b.length := by simpa using congrArg List.length h
  refine List.ext_getElem hlen fun i hi hi' => ?_
  have hget : (if a[i] = 0x2d then 0x5f else a[i]) =
      if b[i] = 0x2d then (0x5f : UInt8) else b[i] := by
    have := congrArg (fun l => l[i]?) h
    simpa [hi, hi'] using this
  have hane : a[i] ≠ 0x5f := fun heq => ha.not_mem (heq ▸ List.getElem_mem hi)
  have hbne : b[i] ≠ 0x5f := fun heq => hb.not_mem (heq ▸ List.getElem_mem hi')
  split at hget <;> split at hget
  · rename_i hai hbi
    rw [hai, hbi]
  · exact absurd hget.symm hbne
  · exact absurd hget hane
  · exact hget

/-! ### The four kinds of names -/

section Peers

variable (d : Direction) (p : MultiNetworkPolicy) {i : Nat} (hi : i < maxRuleIndex)
include hi

/-- The name of a ports chain in its parts. -/
theorem portsChainName_eq : Render.portsChainName (policyChainFullName d.entry p) i =
    truncateNftName (policyChainFullName d.entry p) (suffixRoom i) ++ 0x2d :: portsChainSuffix ++
      0x2d :: decimal i := chainFullName_ports le_rfl d p hi

/-- The name of a peers chain in its parts. -/
theorem peersChainName_eq : Render.peersChainName (policyChainFullName d.entry p) i =
    truncateNftName (policyChainFullName d.entry p) (suffixRoom i) ++ 0x2d :: peersChainSuffix ++
      0x2d :: decimal i := chainFullName_peers le_rfl d p hi

theorem nameLike_portsChainName :
    NameLike (Render.portsChainName (policyChainFullName d.entry p) i) := by
  have hroom := lt_suffixRoom hi
  rw [portsChainName_eq d p hi]
  exact nameLike_indexed ((nameLike_policyChainFullName d p).truncateNftName (by omega))
    (List.all_eq_true.1 (by decide)) i

theorem nameLike_peersChainName :
    NameLike (Render.peersChainName (policyChainFullName d.entry p) i) := by
  have hroom := lt_suffixRoom hi
  rw [peersChainName_eq d p hi]
  exact nameLike_indexed ((nameLike_policyChainFullName d p).truncateNftName (by omega))
    (List.all_eq_true.1 (by decide)) i

/-- The start of a name tells its direction. -/
theorem take_portsChainName :
    (Render.portsChainName (policyChainFullName d.entry p) i).take 12 = d.entry.take 12 :=
  take_chainFullName le_rfl d p (mem_rolesBelow.2 hi : ChainRole.ports i ∈ _)

theorem take_peersChainName :
    (Render.peersChainName (policyChainFullName d.entry p) i).take 12 = d.entry.take 12 :=
  take_chainFullName le_rfl d p (mem_rolesBelow.2 hi : ChainRole.peers i ∈ _)

end Peers

theorem clean_getSetName {s : Str} (h : NameLike s) : Clean (getSetName s) := by
  intro b hb
  unfold getSetName replaceAll at hb
  obtain ⟨c, hc, rfl⟩ := List.mem_map.1 hb
  split
  · decide
  · exact h.clean c hc

/-- Names of sets have no hyphen. -/
theorem not_mem_getSetName (s : Str) : (0x2d : UInt8) ∉ getSetName s := by
  intro hb
  unfold getSetName replaceAll at hb
  obtain ⟨c, -, hc⟩ := List.mem_map.1 hb
  split at hc
  · cases hc
  · rename_i hne
    exact hne hc

/-- Names without dashes that are cut to the same one are equal, or their hashes collide: the cut
form has a dash. -/
theorem eq_of_truncate_getSetName {a b : Str} {maxLen : Nat} (ha : NameLike a) (hb : NameLike b)
    (hmax : 9 < maxLen)
    (h : truncateNftName (getSetName a) maxLen = truncateNftName (getSetName b) maxLen)
    (hhash : maxLen < (getSetName a).length → maxLen < (getSetName b).length →
      fnv32a (getSetName a) = fnv32a (getSetName b) → getSetName a = getSetName b) : a = b := by
  have hself : ∀ {x y : Str}, NameLike x →
      getSetName y = truncateNftName (getSetName x) maxLen → getSetName y = getSetName x := by
    intro x y hx heq
    have hno := not_mem_getSetName y
    rw [truncateNftName_of_clean (clean_getSetName hx) hmax] at heq
    split at heq
    · exact heq
    · rw [heq] at hno
      exact absurd (List.mem_append_right _ (List.mem_cons_self ..)) hno
  refine getSetName_inj ha hb ?_
  rcases eq_of_truncateNftName_eq (clean_getSetName ha) hmax (clean_getSetName hb) h with
    heq | heq | heq | ⟨hla, hlb, hfnv⟩
  · exact heq
  · exact (hself ha heq).symm
  · exact hself hb heq
  · exact hhash hla hlb hfnv

theorem nine_lt_protocolRoom : ∀ protocol : { p : Protocol // p ∈ [.tcp, .udp, .sctp] },
    9 < SetUse.protocolRoom protocol.1 := by
  rintro ⟨p, hp⟩
  fin_cases hp <;> decide

/-- The name of a ports set: what fits of the ports chain's name, and the protocol. -/
theorem getInetSet_name (chain : Chain) (portsName : Str)
    (protocol : { p : Protocol // p ∈ [.tcp, .udp, .sctp] }) :
    (Render.getInetSet chain portsName (getProtocolInfo protocol.1).1).name =
      truncateNftName (getSetName portsName) (SetUse.protocolRoom protocol.1) ++
        0x5f :: (getProtocolInfo protocol.1).1 := by
  have hsep : mapRunes sanitizeNftChar (str "_") = [0x5f] := by decide
  have hproto : mapRunes sanitizeNftChar (getProtocolInfo protocol.1).1 =
      (getProtocolInfo protocol.1).1 := by
    obtain ⟨p, hp⟩ := protocol
    fin_cases hp <;> decide
  have hfits : SuffixFits (str "_") (getProtocolInfo protocol.1).1 := by
    rw [SuffixFits, hsep, hproto]
    obtain ⟨p, hp⟩ := protocol
    fin_cases hp <;> decide
  change nftNameWithSuffix _ _ _ = _
  rw [nftNameWithSuffix_of_fits hfits, hsep, hproto, List.append_assoc]
  rfl

/-- Kind, family and peer can be read off the end of the name of an `ipBlock` set. -/
theorem ipBlockSet_name_inj {table name : Str} {j j' : Nat}
    {isExcept isExcept' isV6 isV6' c c' : Bool}
    (h : (Render.ipBlockSet table name
        (if isExcept then peerIPBlockExceptPrefix else peerIPBlockPrefix) (addressFamily isV6) j
        c).name =
      (Render.ipBlockSet table name
        (if isExcept' then peerIPBlockExceptPrefix else peerIPBlockPrefix) (addressFamily isV6') j'
        c').name) :
    j = j' ∧ isExcept = isExcept' ∧ isV6 = isV6' := by
  simp only [Render.ipBlockSet, List.append_assoc] at h
  have hrest := List.append_cancel_left (List.append_cancel_left h)
  -- the same address suffix in both, one of two words
  have hsuffix : getAddressSuffix name ∈ [sourceAddressSuffix, destinationAddressSuffix] := by
    unfold getAddressSuffix
    split <;> decide
  generalize getAddressSuffix name = suffix at hrest hsuffix
  have hsep : str "_" = [0x5f] := rfl
  simp only [← List.append_assoc] at hrest
  rw [hsep, List.append_assoc _ [0x5f] (decimal j), List.append_assoc _ [0x5f] (decimal j')]
    at hrest
  obtain ⟨hfront, hj⟩ := append_sep_decimal_inj (show isDigit 0x5f = false by decide) hrest
  refine ⟨hj, ?_⟩
  have hwords : ∀ suffix ∈ [sourceAddressSuffix, destinationAddressSuffix],
      ∀ e e' v v' : Bool,
        (if e then peerIPBlockExceptPrefix else peerIPBlockPrefix) ++ [0x5f] ++
            (addressFamily v).protocol ++ [0x5f] ++ suffix =
          (if e' then peerIPBlockExceptPrefix else peerIPBlockPrefix) ++ [0x5f] ++
            (addressFamily v').protocol ++ [0x5f] ++ suffix → e = e' ∧ v = v' := by
    decide
  exact hwords suffix hsuffix _ _ _ _ hfront

/-- Peer, family and hash can be read off the end of the name of a selector's set. -/
theorem selectorSet_name_inj {table name text text' : Str} {j j' : Nat} {isV6 isV6' : Bool}
    (h : (Render.selectorSet table name (addressFamily isV6) j (hashString text)).name =
      (Render.selectorSet table name (addressFamily isV6') j' (hashString text')).name) :
    j = j' ∧ isV6 = isV6' ∧ hashString text = hashString text' := by
  have hhash : ∀ t : Str, (0x5f : UInt8) ∉ hashString t :=
    fun t ht => absurd (isHex_of_mem_hex ht) (by decide)
  have hproto : ∀ v : Bool, (0x5f : UInt8) ∉ (addressFamily v).protocol := by decide
  have hsep : str "_" = [0x5f] := rfl
  simp only [Render.selectorSet, hsep] at h
  rw [List.append_assoc _ [0x5f] (hashString text), List.append_assoc _ [0x5f] (hashString text')]
    at h
  obtain ⟨hfront, htext⟩ := append_sep_inj (hhash text) (hhash text') h
  rw [List.append_assoc _ [0x5f] (addressFamily isV6).protocol,
    List.append_assoc _ [0x5f] (addressFamily isV6').protocol] at hfront
  obtain ⟨hpeer, hfamily⟩ := append_sep_inj (hproto isV6) (hproto isV6') hfront
  have hj := decimal_injective (List.append_cancel_left hpeer)
  have hfamilies : ∀ v v' : Bool,
      (addressFamily v).protocol = (addressFamily v').protocol → v = v' := by decide
  exact ⟨hj, hfamilies _ _ hfamily, htext⟩

/-- The first letter behind the chain's name. -/
theorem ipBlockSet_name_ne {table name text : Str} {j j' : Nat} {isExcept isV6 isV6' c : Bool} :
    (Render.ipBlockSet table name
        (if isExcept then peerIPBlockExceptPrefix else peerIPBlockPrefix) (addressFamily isV6) j
        c).name ≠
      (Render.selectorSet table name (addressFamily isV6') j' (hashString text)).name := by
  intro h
  simp only [Render.ipBlockSet, Render.selectorSet, List.append_assoc] at h
  have hrest := congrArg List.head? (List.append_cancel_left (List.append_cancel_left h))
  have hsuffix : ∀ rest, (getAddressSuffix name ++ rest).head? ∈ [some 0x73, some 0x64] := by
    intro rest
    unfold getAddressSuffix
    split
    · exact List.mem_cons_self ..
    · exact List.mem_cons_of_mem _ (List.mem_cons_self ..)
  have hp : ∀ rest, ((if isExcept then peerIPBlockExceptPrefix else peerIPBlockPrefix) ++
      rest).head? = some 0x70 := by
    intro rest
    cases isExcept <;> rfl
  have hmem := hsuffix (str "_" ++ (decimal j' ++ (str "_" ++ ((addressFamily isV6').protocol ++
    (str "_" ++ hashString text)))))
  rw [← hrest, hp] at hmem
  exact absurd hmem (by decide)

/-! ### Reading a name -/

/-- The first bytes of a set's name. -/
def SetRole.start (d : Direction) : SetRole → Str
  | ports _ _ => getSetName (d.entry.take 12)
  | _ => d.entry.take 12

theorem SetRole.start_peers {d : Direction} {role : SetRole}
    (h : ∀ i protocol, role ≠ .ports i protocol) : role.start d = d.entry.take 12 := by
  cases role with
  | ports i protocol => exact absurd rfl (h i protocol)
  | ipBlock i j isExcept isV6 => rfl
  | selector i j isV6 text => rfl

namespace SetUse

/-- The name of a peer's set goes on behind the name of the peers chain. -/
theorem set_name_peers {u : SetUse} (h : ∀ i protocol, u.role ≠ .ports i protocol) :
    ∃ rest, u.set.name = Render.peersChainName u.chainName u.role.index ++ 0x5f :: rest := by
  obtain ⟨d, p, role⟩ := u
  cases role with
  | ports i protocol => exact absurd rfl (h i protocol)
  | ipBlock i j isExcept isV6 =>
    simp only [set, Render.ipBlockSet, List.append_assoc]
    exact ⟨_, rfl⟩
  | selector i j isV6 text =>
    simp only [set, Render.selectorSet, List.append_assoc]
    exact ⟨_, rfl⟩

/-- The name of a port set in its parts. -/
theorem set_name_ports {u : SetUse} {i : Nat}
    {protocol : { p : Protocol // p ∈ [.tcp, .udp, .sctp] }} (h : u.role = .ports i protocol) :
    u.set.name = truncateNftName (getSetName (Render.portsChainName u.chainName i))
      (protocolRoom protocol.1) ++ 0x5f :: (getProtocolInfo protocol.1).1 := by
  obtain ⟨d, p, role⟩ := u
  obtain rfl : role = _ := h
  exact getInetSet_name _ _ protocol

/-- The start of a set's name tells direction and kind. -/
theorem take_set_name {u : SetUse} (hi : u.role.index < maxRuleIndex) :
    u.set.name.take 12 = u.role.start u.direction := by
  have hentry : 12 ≤ u.direction.entry.length := by cases u.direction <;> decide
  -- a piece of twelve bytes is all that is looked at
  have hfront : ∀ {a : Str} (rest : Str) {x : Str}, a.take 12 = x → x.length = 12 →
      (a ++ rest).take 12 = x := by
    intro a rest x hax hx
    have hlen := congrArg List.length hax
    rw [hx, List.length_take] at hlen
    rw [List.take_append_of_le_length (by omega), hax]
  have hstart : (u.direction.entry.take 12).length = 12 := by
    rw [List.length_take]
    omega
  by_cases h : ∃ i protocol, u.role = .ports i protocol
  · obtain ⟨i, protocol, hrole⟩ := h
    rw [hrole] at hi
    have hchain := take_portsChainName u.direction u.policy hi
    have hlike := nameLike_portsChainName u.direction u.policy hi
    have hroom : 12 ≤ protocolRoom protocol.1 - 9 := by
      obtain ⟨p, hp⟩ := protocol
      fin_cases hp <;> decide
    have htake := take_truncateNftName (clean_getSetName hlike) (nine_lt_protocolRoom protocol)
      hroom
    have hset : (getSetName (Render.portsChainName u.chainName i)).take 12 =
        getSetName (u.direction.entry.take 12) := by
      rw [← hchain]
      simp only [getSetName, replaceAll, List.map_take]
      rfl
    rw [set_name_ports hrole, hrole]
    refine hfront _ (htake.trans hset) ?_
    change (getSetName (u.direction.entry.take 12)).length = 12
    simp only [getSetName, replaceAll, List.length_map, hstart]
  · push Not at h
    obtain ⟨rest, hrest⟩ := set_name_peers h
    have hchain : (Render.peersChainName u.chainName u.role.index).take 12 =
        u.direction.entry.take 12 := take_peersChainName u.direction u.policy hi
    rw [hrest, hfront _ hchain hstart, SetRole.start_peers h]

/-- Two ports sets. -/
theorem ports_name_inj {u u' : SetUse} {i i' : Nat}
    {protocol protocol' : { p : Protocol // p ∈ [.tcp, .udp, .sctp] }}
    (hrole : u.role = .ports i protocol) (hrole' : u'.role = .ports i' protocol')
    (hi : i < maxRuleIndex) (hi' : i' < maxRuleIndex)
    (hcut : ∀ a ∈ u.cutNames, ∀ b ∈ u'.cutNames, fnv32a a = fnv32a b → a = b)
    (h : u.set.name = u'.set.name) :
    i = i' ∧ protocol = protocol' ∧
      truncateNftName u.chainName (suffixRoom i) = truncateNftName u'.chainName (suffixRoom i) := by
  -- protocol names have no separator, so the last one splits the name
  have hno : ∀ q : { p : Protocol // p ∈ [.tcp, .udp, .sctp] },
      (0x5f : UInt8) ∉ (getProtocolInfo q.1).1 := by
    rintro ⟨q, hq⟩
    fin_cases hq <;> decide
  rw [set_name_ports hrole, set_name_ports hrole'] at h
  obtain ⟨htrunc, hname⟩ := append_sep_inj (hno protocol) (hno protocol') h
  obtain rfl : protocol = protocol' := by
    obtain ⟨q, hq⟩ := protocol
    obtain ⟨q', hq'⟩ := protocol'
    fin_cases hq <;> fin_cases hq' <;> first | rfl | exact absurd hname (by decide)
  have hpart : (protocolRoom protocol.1, getSetName (Render.portsChainName u.chainName i)) ∈
      u.parts := by
    simp [parts, hrole]
  have hpart' : (protocolRoom protocol.1, getSetName (Render.portsChainName u'.chainName i')) ∈
      u'.parts := by
    simp [parts, hrole']
  have hchain := eq_of_truncate_getSetName (nameLike_portsChainName u.direction u.policy hi)
    (nameLike_portsChainName u'.direction u'.policy hi') (nine_lt_protocolRoom protocol) htrunc
    fun hl hl' => hcut _ (mem_cutNames hpart hl) _ (mem_cutNames hpart' hl')
  rw [portsChainName_eq _ _ hi, portsChainName_eq _ _ hi'] at hchain
  obtain ⟨rfl, -, hcutEq⟩ := indexed_inj rfl hchain
  exact ⟨rfl, rfl, hcutEq⟩

/-- Two sets of peers. -/
theorem peers_name_inj {u u' : SetUse} (hrole : ∀ i protocol, u.role ≠ .ports i protocol)
    (hrole' : ∀ i protocol, u'.role ≠ .ports i protocol) (hi : u.role.index < maxRuleIndex)
    (hi' : u'.role.index < maxRuleIndex)
    (hsel : ∀ a ∈ u.selectors, ∀ b ∈ u'.selectors, hashString a = hashString b → a = b)
    (h : u.set.name = u'.set.name) :
    u.role = u'.role ∧ truncateNftName u.chainName (suffixRoom u.role.index) =
      truncateNftName u'.chainName (suffixRoom u.role.index) := by
  -- the name of the chain ends at the first separator of the set's name
  have hpeers : Render.peersChainName u.chainName u.role.index =
      Render.peersChainName u'.chainName u'.role.index := by
    obtain ⟨rest, hrest⟩ := set_name_peers hrole
    obtain ⟨rest', hrest'⟩ := set_name_peers hrole'
    rw [hrest, hrest'] at h
    exact (append_first_sep_inj (nameLike_peersChainName u.direction u.policy hi).not_mem
      (nameLike_peersChainName u'.direction u'.policy hi').not_mem h).1
  have hindex := hpeers
  unfold chainName at hindex
  rw [peersChainName_eq _ _ hi, peersChainName_eq _ _ hi'] at hindex
  obtain ⟨hij, -, hcutEq⟩ := indexed_inj rfl hindex
  rw [← hij] at hcutEq
  refine ⟨?_, hcutEq⟩
  obtain ⟨d, p, role⟩ := u
  obtain ⟨d', p', role'⟩ := u'
  -- what follows it tells blocks from selectors, and their numbers
  cases role with
  | ports i protocol => exact absurd rfl (hrole i protocol)
  | ipBlock i j isExcept isV6 =>
    cases role' with
    | ports i' protocol' => exact absurd rfl (hrole' i' protocol')
    | ipBlock i' j' isExcept' isV6' =>
      obtain rfl : i = i' := hij
      dsimp only [set, SetRole.index] at h hpeers
      rw [hpeers] at h
      obtain ⟨rfl, rfl, rfl⟩ := ipBlockSet_name_inj h
      rfl
    | selector i' j' isV6' text' =>
      dsimp only [set, SetRole.index] at h hpeers
      rw [hpeers] at h
      exact absurd h ipBlockSet_name_ne
  | selector i j isV6 text =>
    cases role' with
    | ports i' protocol' => exact absurd rfl (hrole' i' protocol')
    | ipBlock i' j' isExcept' isV6' =>
      dsimp only [set, SetRole.index] at h hpeers
      rw [hpeers] at h
      exact absurd h.symm ipBlockSet_name_ne
    | selector i' j' isV6' text' =>
      obtain rfl : i = i' := hij
      dsimp only [set, SetRole.index] at h hpeers
      rw [hpeers] at h
      obtain ⟨rfl, rfl, hhash⟩ := selectorSet_name_inj h
      have htext : text = text' :=
        hsel text (List.mem_cons_self ..) text' (List.mem_cons_self ..) hhash
      rw [htext]

/-- **What can be read off a name**: everything but the policy, of whose chain name only what fits
is left. -/
theorem set_name_inj {u u' : SetUse} (hi : u.role.index < maxRuleIndex)
    (hi' : u'.role.index < maxRuleIndex)
    (hcut : ∀ a ∈ u.cutNames, ∀ b ∈ u'.cutNames, fnv32a a = fnv32a b → a = b)
    (hsel : ∀ a ∈ u.selectors, ∀ b ∈ u'.selectors, hashString a = hashString b → a = b)
    (h : u.set.name = u'.set.name) :
    u.direction = u'.direction ∧ u.role = u'.role ∧
      truncateNftName u.chainName (suffixRoom u.role.index) =
        truncateNftName u'.chainName (suffixRoom u.role.index) := by
  have hstart : u.role.start u.direction = u'.role.start u'.direction := by
    rw [← take_set_name hi, ← take_set_name hi', h]
  -- the first letters tell the direction, and sets of ports from sets of peers
  have hentries : ∀ d d' : Direction, (d.entry.take 12 = d'.entry.take 12 → d = d') ∧
      (getSetName (d.entry.take 12) = getSetName (d'.entry.take 12) → d = d') ∧
      getSetName (d.entry.take 12) ≠ d'.entry.take 12 := by decide
  obtain ⟨hsame, hsamePorts, hmixed⟩ := hentries u.direction u'.direction
  have hmixed' := (hentries u'.direction u.direction).2.2
  by_cases hports : ∃ i protocol, u.role = .ports i protocol
  · obtain ⟨i, protocol, hrole⟩ := hports
    cases hrole' : u'.role with
    | ports i' protocol' =>
      rw [hrole, hrole'] at hstart
      rw [hrole] at hi
      rw [hrole'] at hi'
      obtain ⟨rfl, rfl, hchain⟩ := ports_name_inj hrole hrole' hi hi' hcut h
      rw [hrole]
      exact ⟨hsamePorts hstart, rfl, hchain⟩
    | ipBlock i' j isExcept isV6 =>
      rw [hrole, hrole'] at hstart
      exact absurd hstart hmixed
    | selector i' j isV6 text =>
      rw [hrole, hrole'] at hstart
      exact absurd hstart hmixed
  · push Not at hports
    rw [SetRole.start_peers hports] at hstart
    have hports' : ∀ i protocol, u'.role ≠ .ports i protocol := by
      intro i protocol hrole'
      rw [hrole'] at hstart
      exact hmixed' hstart.symm
    rw [SetRole.start_peers hports'] at hstart
    exact ⟨hsame hstart, peers_name_inj hports hports' hi hi' hsel h⟩

/-- Sets of policies are told from the sets of the base and common chains. -/
theorem take_five_set_name {u : SetUse} (hi : u.role.index < maxRuleIndex) :
    u.set.name.take 5 = str "multi" := by
  have hfive : ∀ d : Direction, (d.entry.take 12).take 5 = str "multi" ∧
      (getSetName (d.entry.take 12)).take 5 = str "multi" := by decide
  have htake := congrArg (List.take 5) (take_set_name hi)
  rw [List.take_take, Nat.min_eq_left (by decide)] at htake
  rw [htake]
  cases u.role with
  | ports i protocol => exact (hfive u.direction).2
  | ipBlock i j isExcept isV6 => exact (hfive u.direction).1
  | selector i j isV6 text => exact (hfive u.direction).1

/-- A set of a policy is none of the sets that every policy shares. -/
theorem name_not_base {u : SetUse} (hi : u.role.index < maxRuleIndex) : u.name ∉ baseSetNames := by
  have hbase : ∀ n ∈ baseSetNames, endsHex n = false ∧ n.take 5 ≠ str "multi" := by decide
  intro hmem
  obtain ⟨hends, hstart⟩ := hbase _ hmem
  unfold name at hends hstart
  rcases shortName_cases u.set.name with ⟨-, hshort⟩ | ⟨-, hshort⟩
  · rw [hshort] at hstart
    exact hstart (take_five_set_name hi)
  · rw [hshort, endsHex_hashString] at hends
    cases hends

/-- Only the part of the chain's name that fits is in the name of a set. -/
theorem set_name_congr {u u' : SetUse} (hi : u.role.index < maxRuleIndex)
    (hd : u.direction = u'.direction) (hrole : u.role = u'.role)
    (h : truncateNftName u.chainName (suffixRoom u.role.index) =
      truncateNftName u'.chainName (suffixRoom u.role.index)) : u.set.name = u'.set.name := by
  obtain ⟨d, p, role⟩ := u
  obtain ⟨d', p', role'⟩ := u'
  obtain rfl : d = d' := hd
  obtain rfl : role = role' := hrole
  have hports : Render.portsChainName (policyChainFullName d.entry p) role.index =
      Render.portsChainName (policyChainFullName d.entry p') role.index := by
    rw [portsChainName_eq d p hi, portsChainName_eq d p' hi]
    exact congrArg (· ++ 0x2d :: portsChainSuffix ++ 0x2d :: decimal role.index) h
  have hpeers : Render.peersChainName (policyChainFullName d.entry p) role.index =
      Render.peersChainName (policyChainFullName d.entry p') role.index := by
    rw [peersChainName_eq d p hi, peersChainName_eq d p' hi]
    exact congrArg (· ++ 0x2d :: peersChainSuffix ++ 0x2d :: decimal role.index) h
  -- beyond the name of the chain, the name of a set depends on its role only
  cases role with
  | ports i protocol =>
    exact congrArg (fun n => nftNameWithSuffix (getSetName n) (str "_")
      (getProtocolInfo protocol.1).1) hports
  | ipBlock i j isExcept isV6 =>
    exact congrArg (fun n => (Render.ipBlockSet filterTableName n
      (if isExcept then peerIPBlockExceptPrefix else peerIPBlockPrefix) (addressFamily isV6) j
      (!isExcept)).name) hpeers
  | selector i j isV6 text =>
    exact congrArg (fun n => (Render.selectorSet filterTableName n (addressFamily isV6) j
      (hashString text)).name) hpeers

/-- Updating the one set leaves the contents of the other as they are. -/
def Spares (u u' : SetUse) : Prop :=
  ∀ (h : Host) (els : List SetElement) (x : NftSet) (s s' : State), s.messages = [] →
    updateSet h u.set els s = .ok x s' →
      (s'.kernel.commit s'.messages).getElements u'.set.table u'.name =
        s.kernel.getElements u'.set.table u'.name

/-- Different names spare each other. -/
theorem spares_of_name_ne {u u' : SetUse} (hne : u.name ≠ u'.name) : u.Spares u' := by
  intro h els x s s' hmsg hs
  obtain ⟨id, fresh, -, rfl, hadv⟩ := updateSet_advance hs
  obtain ⟨ops, hq, hmsgs⟩ := hadv.messages
  obtain ⟨ops₁, ops₂, hqueues, hnil, rfl⟩ := hq.cons_inv
  obtain ⟨_, ⟨⟩, rfl⟩ := hnil
  rw [hmsg, List.nil_append, List.flatten_nil, List.append_nil] at hmsgs
  rw [hadv.kernel, hmsgs]
  refine Kernel.getElements_commit (hqueues.spares ?_) _
  rintro _ _ _ ⟨⟩ ⟨-, hname⟩
  exact hne hname

end SetUse

/-! ### When set names are distinct -/

/-- The hashes in the names of sets do not collide: those of names that are cut, of selectors, and
of names that are longer than 31 bytes. -/
structure SetHashesApart (uses : List SetUse) : Prop where
  cut : ∀ u ∈ uses, ∀ u' ∈ uses, ∀ a ∈ u.cutNames, ∀ b ∈ u'.cutNames, fnv32a a = fnv32a b → a = b
  selector : ∀ u ∈ uses, ∀ u' ∈ uses, ∀ a ∈ u.selectors, ∀ b ∈ u'.selectors,
    hashString a = hashString b → a = b
  short : ∀ u ∈ uses, ∀ u' ∈ uses, 31 < u.set.name.length → 31 < u'.set.name.length →
    hashString u.set.name = hashString u'.set.name → u.set.name = u'.set.name

/-- The sets have names of their own. -/
structure SetsDistinct (uses : List SetUse) : Prop where
  policies : ∀ u ∈ uses, ∀ u' ∈ uses, u.key ≠ u'.key → u.name ≠ u'.name
  base : ∀ u ∈ uses, u.name ∉ baseSetNames

/-- Of two policies with the same kind of set, neither has the cut form of the other's name, and
neither has a chain with the cut form of the name of the other's chain. -/
structure SetNamesApart (uses : List SetUse) : Prop where
  cut : ∀ u ∈ uses, ∀ u' ∈ uses, u.direction = u'.direction → u.role = u'.role →
    u.policy.name ≠ u'.policy.name →
    policyRuleNamespacedName u'.policy ≠
      truncateNftName (policyRuleNamespacedName u.policy) u.direction.room
  suffixed : ∀ u ∈ uses, ∀ u' ∈ uses, u.direction = u'.direction → u.role = u'.role →
    u.policy.name ≠ u'.policy.name →
    u'.chainName ≠ truncateNftName u.chainName (suffixRoom u.role.index)

section Distinct

variable {ns : Str} {uses : List SetUse} (hns : ∀ u ∈ uses, u.policy.namespace = ns)
  (hindex : ∀ u ∈ uses, u.role.index < maxRuleIndex)
include hns hindex

/-- Sets with the same name are those of the same policy. -/
theorem SetNamesApart.key_eq (hn : SetNamesApart uses) (hh : SetHashesApart uses) {u u' : SetUse}
    (hu : u ∈ uses) (hu' : u' ∈ uses) (h : u.name = u'.name) : u.key = u'.key := by
  have hi := hindex u hu
  have hi' := hindex u' hu'
  have hset := eq_of_shortName_eq (SetUse.take_five_set_name hi) (SetUse.take_five_set_name hi')
    (hh.short u hu u' hu') h
  obtain ⟨hd, hrole, hchain⟩ :=
    SetUse.set_name_inj hi hi' (hh.cut u hu u' hu') (hh.selector u hu u' hu') hset
  suffices hname : u.policy.name = u'.policy.name by
    unfold SetUse.key
    rw [hd, hrole, hname]
  by_contra hne
  have hparts : ∀ v : SetUse, (v.direction.room, policyRuleNamespacedName v.policy) ∈ v.parts ∧
      (suffixRoom v.role.index, v.chainName) ∈ v.parts := by
    intro v
    unfold SetUse.parts
    exact ⟨List.mem_cons_self .., List.mem_cons_of_mem _ (List.mem_cons_self ..)⟩
  have hcut := hn.cut u' hu' u hu hd.symm hrole.symm (Ne.symm hne)
  have hsuffixed := hn.suffixed u' hu' u hu hd.symm hrole.symm (Ne.symm hne)
  have hparts' := hparts u'
  have hpolicies := (hns u hu).trans (hns u' hu').symm
  -- both chains are of the direction of `u`
  have hchain' : u'.chainName = policyChainFullName u.direction.entry u'.policy := by
    rw [SetUse.chainName, hd]
  rw [hchain'] at hchain hsuffixed hparts'
  rw [← hrole] at hsuffixed hparts'
  rw [← hd] at hcut hparts'
  have hfull := policyChainFullName_eq_of_cut hi
    (by rw [← hchain']; exact hn.suffixed u hu u' hu' hd hrole hne) hsuffixed
    (fun hl hl' => hh.cut u hu u' hu' _ (SetUse.mem_cutNames (hparts u).2 hl) _
      (SetUse.mem_cutNames hparts'.2 hl')) hchain
  exact hne (name_eq_of_policyChainFullName hpolicies (hn.cut u hu u' hu' hd hrole hne) hcut
    (fun hl hl' => hh.cut u hu u' hu' _ (SetUse.mem_cutNames (hparts u).1 hl) _
      (SetUse.mem_cutNames hparts'.1 hl')) hfull)

/-- **When the sets of policies are distinct.**  The policies are those of a namespace, the sets any
of theirs.  An update of one set then leaves the others alone. -/
theorem setNames_distinct_iff (hh : SetHashesApart uses) :
    (SetsDistinct uses ↔ SetNamesApart uses) ∧
    (SetNamesApart uses → ∀ u ∈ uses, ∀ u' ∈ uses, u.key ≠ u'.key → u.Spares u') := by
  have hdistinct : SetNamesApart uses → ∀ u ∈ uses, ∀ u' ∈ uses, u.key ≠ u'.key →
      u.name ≠ u'.name :=
    fun hn u hu u' hu' hne heq => hne (hn.key_eq hns hindex hh hu hu' heq)
  refine ⟨⟨fun hd => ?_, fun hn => ?_⟩, fun hn u hu u' hu' hne => ?_⟩
  · -- what is left of the chains' names is the same
    have hclash : ∀ u ∈ uses, ∀ u' ∈ uses, u.direction = u'.direction → u.role = u'.role →
        u.policy.name ≠ u'.policy.name →
        truncateNftName u.chainName (suffixRoom u.role.index) ≠
          truncateNftName u'.chainName (suffixRoom u.role.index) := by
      intro u hu u' hu' hdir hrole hne heq
      have hkey : u.key ≠ u'.key := fun hk => hne (congrArg (fun k => k.2.1) hk)
      have hset := SetUse.set_name_congr (hindex u hu) hdir hrole heq
      exact hd.policies u hu u' hu' hkey (congrArg shortName hset)
    refine ⟨?_, ?_⟩
    · intro u hu u' hu' hdir hrole hne hcut
      have hfull : u.chainName = u'.chainName := by
        unfold SetUse.chainName
        rw [← hdir, policyChainFullName_eq, policyChainFullName_eq, hcut,
          truncateNftName_truncateNftName]
      exact hclash u hu u' hu' hdir hrole hne (by rw [hfull])
    · intro u hu u' hu' hdir hrole hne hcut
      exact hclash u hu u' hu' hdir hrole hne (by rw [hcut, truncateNftName_truncateNftName])
  · exact ⟨hdistinct hn, fun u hu => SetUse.name_not_base (hindex u hu)⟩
  · exact SetUse.spares_of_name_ne (hdistinct hn u hu u' hu' hne)

end Distinct

/-- One set of each kind. -/
def someRoles : List SetRole :=
  [.ports 0 ⟨.tcp, by decide⟩, .ipBlock 0 0 false false, .ipBlock 0 0 true false,
    .selector 0 1 true (str "<all>")]

/-- Sets of policies with unrelated names. -/
def unrelatedUses : List SetUse :=
  unrelatedPolicies.flatMap fun p => someRoles.map fun role => ⟨.ingress, p, role⟩

set_option maxRecDepth 10000 in
/-- The sets of three policies with ordinary names. -/
theorem unrelated_sets_distinct : SetsDistinct unrelatedUses ∧
    ∀ u ∈ unrelatedUses, ∀ u' ∈ unrelatedUses, u.key ≠ u'.key → u.Spares u' := by
  have hns : ∀ u ∈ unrelatedUses, u.policy.namespace = str "default" := by decide
  have hindex : ∀ u ∈ unrelatedUses, u.role.index < maxRuleIndex := by decide
  have hhashes : SetHashesApart unrelatedUses :=
    ⟨by decide +kernel, by decide +kernel, by decide +kernel⟩
  have hapart : SetNamesApart unrelatedUses := ⟨by decide +kernel, by decide +kernel⟩
  obtain ⟨hiff, hspares⟩ := setNames_distinct_iff hns hindex hhashes
  exact ⟨hiff.2 hapart, hspares hapart⟩

/-- A policy whose name is cut. -/
def longPolicy : MultiNetworkPolicy :=
  ingressPolicy (List.replicate 250 0x61) (by decide +kernel) [] []

/-- A policy that is named like the cut form. -/
def cutPolicy : MultiNetworkPolicy :=
  ingressPolicy
    ((truncateNftName (policyRuleNamespacedName longPolicy) Direction.ingress.room).drop 8)
    (by decide +kernel) [] []

/-- Their sets. -/
def cutUses : List SetUse :=
  [longPolicy, cutPolicy].flatMap fun p => someRoles.map fun role => ⟨.ingress, p, role⟩

set_option maxRecDepth 10000 in
/-- They share each of their sets, without any collision of hashes. -/
theorem cut_sets_collide : (∀ u ∈ cutUses, u.policy.namespace = str "default") ∧
    (∀ u ∈ cutUses, u.role.index < maxRuleIndex) ∧ longPolicy.name ≠ cutPolicy.name ∧
    SetHashesApart cutUses ∧
    (∀ role ∈ someRoles, (⟨.ingress, longPolicy, role⟩ : SetUse).name =
      (⟨.ingress, cutPolicy, role⟩ : SetUse).name) ∧
    ¬ SetsDistinct cutUses := by
  have hnames : ∀ role ∈ someRoles, (⟨.ingress, longPolicy, role⟩ : SetUse).name =
      (⟨.ingress, cutPolicy, role⟩ : SetUse).name := by decide +kernel
  have hdiff : longPolicy.name ≠ cutPolicy.name := by decide +kernel
  refine ⟨by decide +kernel, by decide, hdiff,
    ⟨by decide +kernel, by decide +kernel, by decide +kernel⟩, hnames, fun h => ?_⟩
  have hmem : ∀ p ∈ [longPolicy, cutPolicy], (⟨.ingress, p, .ports 0 ⟨.tcp, by decide⟩⟩ : SetUse) ∈
      cutUses := by
    intro p hp
    exact List.mem_flatMap.2 ⟨p, hp, List.mem_cons_self ..⟩
  refine h.policies _ (hmem longPolicy (List.mem_cons_self ..)) _
    (hmem cutPolicy (List.mem_cons_of_mem _ (List.mem_cons_self ..))) (fun hkey => ?_)
    (hnames _ (List.mem_cons_self ..))
  exact hdiff (congrArg (fun k => k.2.1) hkey)

end MultiNetPolicy
