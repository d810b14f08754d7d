import MultiNetPolicy.Equiv.Contents
import MultiNetPolicy.Equiv.Ranges
import MultiNetPolicy.Equiv.Union

/-!
# The ports of a rule

An entry of a rule's ports stands for a range of ports of one protocol, or for every packet when it
has neither protocol nor port (`MultiNetworkPolicyPort.Matches`).  The entries of a protocol become
the markers of one interval set (`collectPorts_eq_ok`).  The ports chain of a rule that has just
been rendered sets the port mark for the packets that some entry matches exactly when no range of a
protocol ends inside another one of it, unless a further one starts there, and entries without
protocol and port do not stand beside others (`ports_chain_matches_iff`).
-/

namespace MultiNetPolicy

open ByteString Intervals

/-! ### Entries -/

/-- The number of a port, when it has one. -/
def IntOrString.number : IntOrString → Option Int
  | .int v => some v
  | .string s => atoi s

namespace MultiNetworkPolicyPort

/-- The entry has neither a protocol nor a port. -/
def IsWildcard (entry : MultiNetworkPolicyPort) : Prop := entry.protocol = none ∧ entry.port = none

instance (entry : MultiNetworkPolicyPort) : Decidable entry.IsWildcard :=
  inferInstanceAs (Decidable (_ ∧ _))

/-- The entry matches a port of a protocol: without a port every one, else the ports from the port
to the end port. -/
def Matches (entry : MultiNetworkPolicyPort) (protocol : Protocol) (q : Nat) : Prop :=
  match entry.port with
  | none => entry.protocol = none ∨ entry.protocol = some protocol
  | some port => entry.protocol.getD .tcp = protocol ∧
      ∃ p ∈ port.number, p ≤ q ∧ (q : Int) ≤ max p (entry.endPort.getD p)

end MultiNetworkPolicyPort

/-- The ports from one to another. -/
def portsBetween (first last : Nat) : HalfOpen Nat where
  first := first
  after := if max first last < 65535 then some (max first last + 1) else none
  first_lt e he := by
    rw [Option.mem_def, Option.ite_none_right_eq_some] at he
    have := Option.some.inj he.2
    omega

/-- The ports of an interval. -/
theorem contains_portsBetween {first last q : Nat} (hle : first ≤ last) (hlast : last ≤ 65535)
    (hq : q ≤ 65535) : (portsBetween first last).Contains q ↔ first ≤ q ∧ q ≤ last := by
  have hmax : max first last = last := Nat.max_eq_right hle
  unfold HalfOpen.Contains portsBetween
  simp only [hmax, Option.mem_def, Option.ite_none_right_eq_some, Option.some.injEq]
  refine and_congr_right fun _ => ⟨fun h => ?_, ?_⟩
  · by_cases hend : last < 65535
    · have := h (last + 1) ⟨hend, rfl⟩
      omega
    · omega
  · rintro h e ⟨-, rfl⟩
    omega

/-- The end marker of an interval wraps behind the last port. -/
theorem endOf_portsBetween {first last : Nat} (hle : first ≤ last) (hlast : last ≤ 65535) :
    endOf (portsBetween first last) = (last + 1) % 65536 := by
  have hmax : max first last = last := Nat.max_eq_right hle
  simp only [endOf, portsBetween, hmax]
  split
  · rw [Option.getD_some]
    omega
  · rw [Option.getD_none]
    omega

/-- The elements of a range. -/
def rangeElements (r : HalfOpen Nat) : List SetElement :=
  [⟨NetIP.beBytes 2 r.first, false, []⟩, ⟨NetIP.beBytes 2 (endOf r), true, []⟩]

/-- A port and its end port become the markers of an interval. -/
theorem portElements_eq_ok {p : Int} {endPort : Option Int} {els : List SetElement}
    (h : portElements p endPort = .ok els) :
    1 ≤ p ∧ max p (endPort.getD p) ≤ 65535 ∧
      els = rangeElements (portsBetween p.toNat (max p (endPort.getD p)).toNat) := by
  -- an end port of 65535 wraps to the marker 0
  have hels : ∀ {last : Int}, 1 ≤ p → p ≤ last → last ≤ 65535 →
      [(⟨putUint16 p, false, []⟩ : SetElement), ⟨putUint16 (last + 1), true, []⟩] =
        rangeElements (portsBetween p.toNat last.toNat) := by
    intro last h₁ h₂ h₃
    have hstart : (p % 65536).toNat = p.toNat := by omega
    have hend : ((last + 1) % 65536).toNat = (last.toNat + 1) % 65536 := by omega
    rw [rangeElements, endOf_portsBetween (by omega) (by omega), putUint16, putUint16, hstart, hend]
    rfl
  unfold portElements maxUint16 at h
  split at h
  · cases h
  · rename_i hp
    push Not at hp
    -- an end port that is not above the port is ignored
    cases endPort with
    | none =>
      obtain rfl := Except.ok.inj h
      rw [Option.getD_none, max_self]
      exact ⟨by omega, by omega, hels (by omega) le_rfl (by omega)⟩
    | some e =>
      rw [Option.getD_some]
      by_cases he : e > p
      · simp only [if_pos he] at h
        split at h
        · cases h
        · rename_i hrange
          push Not at hrange
          obtain rfl := Except.ok.inj h
          rw [max_eq_right he.le]
          exact ⟨by omega, by omega, hels (by omega) he.le (by omega)⟩
      · simp only [if_neg he] at h
        obtain rfl := Except.ok.inj h
        rw [max_eq_left (not_lt.1 he)]
        exact ⟨by omega, by omega, hels (by omega) le_rfl (by omega)⟩

/-- The range of an entry that has a protocol or a port. -/
def MultiNetworkPolicyPort.range (entry : MultiNetworkPolicyPort) : Option (HalfOpen Nat) :=
  match entry.port with
  | none => if entry.protocol = none then none else some (portsBetween 1 65535)
  | some port => port.number.map fun p => portsBetween p.toNat (max p (entry.endPort.getD p)).toNat

/-- What an accepted entry stands for. -/
inductive MultiNetworkPolicyPort.Accepted (entry : MultiNetworkPolicyPort) :
    List SetElement → Prop where
  | wildcard (hw : entry.IsWildcard) : Accepted entry []
  | ports (first last : Nat) (hw : ¬ entry.IsWildcard) (hfirst : 1 ≤ first) (hle : first ≤ last)
      (hlast : last ≤ 65535) (hrange : entry.range = some (portsBetween first last))
      (hmatches : ∀ protocol, ∀ q ≤ 65535, 1 ≤ q → (entry.Matches protocol q ↔
        entry.protocol.getD .tcp = protocol ∧ (portsBetween first last).Contains q)) :
      Accepted entry (rangeElements (portsBetween first last))

theorem accepted_of_number {entry : MultiNetworkPolicyPort} {port : IntOrString} {p : Int}
    {els : List SetElement} (hport : entry.port = some port) (hp : port.number = some p)
    (h : portElements p entry.endPort = .ok els) : entry.Accepted els := by
  obtain ⟨h₁, h₂, rfl⟩ := portElements_eq_ok h
  have hmax : p ≤ max p (entry.endPort.getD p) := le_max_left ..
  generalize hlast : max p (entry.endPort.getD p) = last at *
  refine .ports p.toNat last.toNat ?_ (by omega) (by omega) (by omega) ?_ fun protocol q hq _ => ?_
  · rintro ⟨-, hnone⟩
    rw [hport] at hnone
    cases hnone
  · simp [MultiNetworkPolicyPort.range, hport, hp, hlast]
  · have hmatch : entry.Matches protocol q ↔ entry.protocol.getD .tcp = protocol ∧
        p ≤ q ∧ (q : Int) ≤ last := by
      simp only [MultiNetworkPolicyPort.Matches, hport, hp, Option.mem_def, Option.some.injEq,
        exists_eq_left', hlast]
    rw [hmatch, contains_portsBetween (by omega) (by omega) hq]
    refine and_congr_right fun _ => ?_
    omega

/-- `validatePortSpec` of an entry, after a protocol without port has got all ports. -/
theorem accepted_of_validatePortSpec {entry : MultiNetworkPolicyPort} {els : List SetElement}
    (h : validatePortSpec (fillPort entry) = .ok els) : entry.Accepted els := by
  -- without a port an entry is for all ports of its protocol, or a wildcard
  cases hport : entry.port with
  | none =>
    cases hprotocol : entry.protocol with
    | none =>
      have hfill : fillPort entry = entry := by
        rw [fillPort, if_neg (fun hc => hc.2 hprotocol)]
      rw [hfill, validatePortSpec, hport] at h
      obtain rfl := Except.ok.inj h
      exact .wildcard ⟨hprotocol, hport⟩
    | some protocol =>
      have hfill : fillPort entry =
          { entry with port := some (.int 1), endPort := some maxUint16 } := by
        rw [fillPort, if_pos ⟨hport, by rw [hprotocol]; exact Option.some_ne_none _⟩]
      rw [hfill, validatePortSpec] at h
      obtain ⟨-, -, rfl⟩ := portElements_eq_ok h
      refine .ports 1 65535 ?_ le_rfl (by decide) le_rfl ?_ fun protocol' q hq hq₁ => ?_
      · rintro ⟨hnone, -⟩
        rw [hprotocol] at hnone
        cases hnone
      · simp [MultiNetworkPolicyPort.range, hport, hprotocol]
      · have hmatch : entry.Matches protocol' q ↔ protocol = protocol' := by
          simp [MultiNetworkPolicyPort.Matches, hport, hprotocol]
        rw [hmatch, contains_portsBetween (by decide) le_rfl hq, hprotocol, Option.getD_some]
        exact (and_iff_left ⟨hq₁, hq⟩).symm
  | some port =>
    have hfill : fillPort entry = entry := by
      refine if_neg fun hc => ?_
      rw [hport] at hc
      cases hc.1
    rw [hfill, validatePortSpec, hport] at h
    cases port with
    | int v => exact accepted_of_number hport rfl h
    | string s =>
      cases hs : atoi s with
      | none =>
        simp only [hs] at h
        cases h
      | some v =>
        simp only [hs] at h
        split at h
        · cases h
        · exact accepted_of_number hport hs h

/-! ### The elements of a protocol -/

/-- The protocols that have ports chains rules. -/
def portProtocols : List Protocol := [.tcp, .udp, .sctp]

/-- The ranges of a protocol; entries without one are for TCP. -/
def rangesFor (ports : List MultiNetworkPolicyPort) (protocol : Protocol) : List (HalfOpen Nat) :=
  (ports.filter fun entry => entry.protocol.getD .tcp = protocol).filterMap
    MultiNetworkPolicyPort.range

/-- The elements that were collected for a protocol. -/
def PortElements.of (g : PortElements) : Protocol → List SetElement
  | .udp => g.udp
  | .sctp => g.sctp
  | _ => g.tcp

/-- The markers of an entry are those of its interval. -/
theorem MultiNetworkPolicyPort.Accepted.elements {entry : MultiNetworkPolicyPort}
    {els : List SetElement} (h : entry.Accepted els) :
    els = (entry.range.map rangeElements).getD [] := by
  cases h with
  | wildcard hw =>
    have hrange : entry.range = none := by
      simp [MultiNetworkPolicyPort.range, hw.1, hw.2]
    rw [hrange]
    rfl
  | ports first last hw hfirst hle hlast hrange hmatches =>
    rw [hrange]
    rfl

/-- One round of the loop over the ports. -/
theorem collectPorts_cons_eq_ok {entry : MultiNetworkPolicyPort}
    {rest : List MultiNetworkPolicyPort} {g : PortElements}
    (h : collectPorts (entry :: rest) = .ok g)
    (hentry : entry.protocol.getD .tcp ∈ portProtocols) :
    ∃ els g', entry.Accepted els ∧ collectPorts rest = .ok g' ∧ ∀ protocol ∈ portProtocols,
      g.of protocol = (if entry.protocol.getD .tcp = protocol then els else []) ++
        g'.of protocol := by
  rw [collectPorts] at h
  cases hels : validatePortSpec (fillPort entry) with
  | error e =>
    rw [hels] at h
    cases h
  | ok els =>
    rw [hels] at h
    cases hrest : collectPorts rest with
    | error e =>
      rw [hrest] at h
      cases h
    | ok g' =>
      rw [hrest] at h
      obtain rfl := Except.ok.inj h
      refine ⟨els, g', accepted_of_validatePortSpec hels, rfl, ?_⟩
      generalize entry.protocol = protocol at hentry ⊢
      -- the loop sorts by the entry's own protocol, and puts everything else to TCP
      rcases protocol with _ | _ | _ | _ | name
      · simp [portProtocols, PortElements.of]
      · simp [portProtocols, PortElements.of]
      · simp [portProtocols, PortElements.of]
      · simp [portProtocols, PortElements.of]
      · simp [portProtocols] at hentry

/-- **The elements of a protocol are the markers of its ranges**, and every entry was accepted. -/
theorem collectPorts_eq_ok : ∀ {ports : List MultiNetworkPolicyPort} {g : PortElements},
    collectPorts ports = .ok g → (∀ entry ∈ ports, entry.protocol.getD .tcp ∈ portProtocols) →
    (∀ entry ∈ ports, ∃ els, entry.Accepted els) ∧
      ∀ protocol ∈ portProtocols, g.of protocol = (rangesFor ports protocol).flatMap rangeElements
  | [], g, h, _ => by
    obtain rfl := Except.ok.inj h
    refine ⟨nofun, fun protocol _ => ?_⟩
    cases protocol <;> rfl
  | entry :: rest, g, h, hports => by
    obtain ⟨els, g', hels, hrest, hg⟩ := collectPorts_cons_eq_ok h
      (hports entry (List.mem_cons_self ..))
    obtain ⟨haccepted, hg'⟩ := collectPorts_eq_ok hrest fun e he =>
      hports e (List.mem_cons_of_mem _ he)
    refine ⟨?_, fun protocol hp => ?_⟩
    · rw [List.forall_mem_cons]
      exact ⟨⟨els, hels⟩, haccepted⟩
    · rw [hg protocol hp, hg' protocol hp, hels.elements]
      unfold rangesFor
      by_cases hprotocol : entry.protocol.getD .tcp = protocol
      · rw [if_pos hprotocol, List.filter_cons_of_pos (by simpa using hprotocol),
          List.filterMap_cons]
        cases entry.range <;> rfl
      · rw [if_neg hprotocol, List.filter_cons_of_neg (by simpa using hprotocol), List.nil_append]

section Lookup

variable {ports : List MultiNetworkPolicyPort}
  (haccepted : ∀ entry ∈ ports, ∃ els, entry.Accepted els) {protocol : Protocol}
include haccepted

/-- Where an interval comes from. -/
theorem exists_of_mem_rangesFor {r : HalfOpen Nat} (hr : r ∈ rangesFor ports protocol) :
    ∃ entry ∈ ports, entry.protocol.getD .tcp = protocol ∧ entry.range = some r ∧
      ¬ entry.IsWildcard ∧ 1 ≤ r.first ∧ r.first ≤ 65535 ∧
      (∀ e ∈ r.after, 1 ≤ e ∧ e ≤ 65535) ∧ ∀ q ≤ 65535, 1 ≤ q →
        (entry.Matches protocol q ↔ r.Contains q) := by
  obtain ⟨entry, hentry, hrange⟩ := List.mem_filterMap.1 hr
  obtain ⟨hmem, hprotocol⟩ := List.mem_filter.1 hentry
  have hprotocol := of_decide_eq_true hprotocol
  obtain ⟨els, hels⟩ := haccepted entry hmem
  cases hels with
  | wildcard hw => simp [MultiNetworkPolicyPort.range, hw.1, hw.2] at hrange
  | ports first last hw hfirst hle hlast hrange' hmatches =>
    obtain rfl := Option.some.inj (hrange'.symm.trans hrange)
    refine ⟨entry, hmem, hprotocol, hrange, hw, hfirst, hle.trans hlast, ?_, fun q hq hq₁ => ?_⟩
    · intro e he
      rw [portsBetween, Option.mem_def, Option.ite_none_right_eq_some] at he
      have := Option.some.inj he.2
      omega
    · rw [hmatches protocol q hq hq₁]
      exact and_iff_right hprotocol

/-- A port is covered by the ranges of its protocol when an entry that has one matches it. -/
theorem covered_rangesFor {q : Nat} (hq : q ≤ 65535) (hq₁ : 1 ≤ q) :
    Covered (rangesFor ports protocol) q ↔
      ∃ entry ∈ ports, ¬ entry.IsWildcard ∧ entry.Matches protocol q := by
  constructor
  · rintro ⟨r, hr, hcontains⟩
    obtain ⟨entry, hmem, -, -, hw, -, -, -, hmatches⟩ := exists_of_mem_rangesFor haccepted hr
    exact ⟨entry, hmem, hw, (hmatches q hq hq₁).2 hcontains⟩
  · rintro ⟨entry, hmem, hw, hmatch⟩
    obtain ⟨els, hels⟩ := haccepted entry hmem
    cases hels with
    | wildcard hw' => exact absurd hw' hw
    | ports first last hw hfirst hle hlast hrange hmatches =>
      obtain ⟨hprotocol, hcontains⟩ := (hmatches protocol q hq hq₁).1 hmatch
      refine ⟨_, List.mem_filterMap.2 ⟨entry, List.mem_filter.2 ⟨hmem, ?_⟩, hrange⟩, hcontains⟩
      exact decide_eq_true hprotocol

/-- What the kernel finds in the set of a protocol. -/
theorem setContains_rangesFor {els : List SetElement}
    (hels : ∀ y, y ∈ contentsOf els ↔
      y ∈ contentsOf ((rangesFor ports protocol).flatMap rangeElements))
    {q : Nat} (hq : q ≤ 65535) :
    setContains true els (NetIP.beBytes 2 q) = true ↔
      Marked ((rangesFor ports protocol).map HalfOpen.first)
        ((rangesFor ports protocol).map endOf ++ []) q := by
  -- the markers fit in two bytes
  have hbound : ∀ r ∈ rangesFor ports protocol, r.first < 256 ^ 2 ∧ endOf r < 256 ^ 2 := by
    intro r hr
    obtain ⟨-, -, -, -, -, -, hfirst, hafter, -⟩ := exists_of_mem_rangesFor haccepted hr
    refine ⟨by omega, ?_⟩
    unfold endOf
    cases he : r.after with
    | none =>
      rw [Option.getD_none]
      omega
    | some e =>
      have := hafter e he
      rw [Option.getD_some]
      omega
  rw [List.append_nil]
  refine setContains_iff_marked (fun y => ?_) ?_ ?_ (by omega)
  · rw [hels]
    simp only [contentsOf, List.mem_map, List.mem_flatMap, rangeElements]
    constructor
    · rintro ⟨d, ⟨r, hr, hd⟩, rfl⟩
      rcases List.mem_cons.1 hd with rfl | hd
      · exact .inl ⟨_, ⟨r, hr, rfl⟩, rfl⟩
      · obtain rfl := List.mem_singleton.1 hd
        exact .inr ⟨_, ⟨r, hr, rfl⟩, rfl⟩
    · rintro (⟨_, ⟨r, hr, rfl⟩, rfl⟩ | ⟨_, ⟨r, hr, rfl⟩, rfl⟩)
      · exact ⟨_, ⟨r, hr, List.mem_cons_self ..⟩, rfl⟩
      · exact ⟨_, ⟨r, hr, List.mem_cons_of_mem _ (List.mem_singleton_self _)⟩, rfl⟩
  · intro s hs
    obtain ⟨r, hr, rfl⟩ := List.mem_map.1 hs
    exact (hbound r hr).1
  · intro e he
    obtain ⟨r, hr, rfl⟩ := List.mem_map.1 he
    exact (hbound r hr).2

end Lookup

/-! ### The calls for a ports chain -/

namespace Render

variable {bo : ByteOrder} {chainName policyName : Str} {chain : Chain} {index : Nat}

/-- The set of a protocol, under the ID that the connection gave it. -/
def portSetOf (chainName : Str) (index : Nat) (protocol : Protocol) (id : Nat) : NftSet :=
  (getInetSet ⟨filterTableName, [], none⟩ (portsChainName chainName index)
    (getProtocolInfo protocol).1).short id

/-- The name of the set of a protocol in the kernel. -/
def portSetName (chainName : Str) (index : Nat) (protocol : Protocol) : Str :=
  (portSetOf chainName index protocol 0).name

/-- The rule that looks up the set of a protocol. -/
def portRuleOf (bo : ByteOrder) (chainName policyName : Str) (index : Nat) (protocol : Protocol)
    (id : Nat) : Rule :=
  protoPortsRule bo (portsChainName chainName index) (portsChainOf chainName index) policyName
    (portSetOf chainName index protocol id) (getProtocolInfo protocol).2

/-- The rule of a ports chain that accepts every port. -/
def allPortsRule (bo : ByteOrder) (chainName policyName : Str) (index : Nat) : Rule :=
  acceptAllRule bo (portsChainName chainName index) (portsChainOf chainName index) policyName
    (str "ports") portRuleMark

/-- The calls for the ports of one protocol. -/
theorem exec_applyProtoPorts (ht : chain.table = filterTableName) {protocol : Protocol}
    {els : List SetElement} {es : List Event} {u : Unit}
    (h : Exec (applyProtoPorts bo chain (portsChainName chainName index)
      (portsChainOf chainName index) policyName protocol els) es u) :
    (els = [] ∧ es = []) ∨ els ≠ [] ∧ ∃ id fresh isNew,
      es = [.set (portSetOf chainName index protocol id) els fresh,
        .rule (portRuleOf bo chainName policyName index protocol id) .addRule false isNew] := by
  unfold applyProtoPorts at h
  rw [exec_when] at h
  rcases h with ⟨hlen, h⟩ | ⟨hlen, rfl⟩
  · refine .inr ⟨List.length_pos_iff.1 hlen, ?_⟩
    obtain ⟨set, es₁, es₂, h₁, h₂, rfl⟩ := exec_bind.1 h
    obtain ⟨id, fresh, hid, rfl, rfl⟩ := exec_updateSet.1 h₁
    rw [exec_wrapErr, applyProtoPortsRules] at h₂
    obtain ⟨isNew, es₃, es₄, h₃, h₄, rfl⟩ := exec_bind.1 h₂
    obtain rfl := exec_updateRule.1 h₃
    obtain ⟨-, rfl⟩ := exec_pure.1 h₄
    refine ⟨id, fresh, isNew, ?_⟩
    unfold portRuleOf portSetOf getInetSet
    rw [ht]
    rfl
  · exact .inl ⟨List.length_eq_zero_iff.1 (by omega), rfl⟩

/-- The calls for a ports chain, with the elements of each protocol. -/
structure PortsCalls (bo : ByteOrder) (chainName : Str) (chain : Chain) (policyName : Str)
    (index : Nat) (els : Protocol → List SetElement) (es : List Event) : Prop where
  set_of_mem : ∀ s els' fresh, .set s els' fresh ∈ es → ∃ protocol ∈ portProtocols,
    els' = els protocol ∧ ∃ id, s = portSetOf chainName index protocol id
  rule_of_mem : ∀ r ∈ rulesOf es,
    r = policyJumpRule chainName chain policyName (portsChainOf chainName index) ∨
    (∃ protocol ∈ portProtocols, els protocol ≠ [] ∧
      ∃ id, r = portRuleOf bo chainName policyName index protocol id) ∨
    (∀ protocol ∈ portProtocols, els protocol = []) ∧ r = allPortsRule bo chainName policyName index
  protocol_mem : ∀ protocol ∈ portProtocols, els protocol ≠ [] → ∃ id,
    (∃ fresh, .set (portSetOf chainName index protocol id) (els protocol) fresh ∈ es) ∧
    portRuleOf bo chainName policyName index protocol id ∈ rulesOf es
  all_mem : (∀ protocol ∈ portProtocols, els protocol = []) →
    allPortsRule bo chainName policyName index ∈ rulesOf es

/-- The calls for one protocol, as far as a ports chain sees them. -/
theorem mem_protoCalls {protocol : Protocol} {els : List SetElement} {es : List Event}
    (h : (els = [] ∧ es = []) ∨ els ≠ [] ∧ ∃ id fresh isNew,
      es = [.set (portSetOf chainName index protocol id) els fresh,
        .rule (portRuleOf bo chainName policyName index protocol id) .addRule false isNew]) :
    (∀ s els' fresh, .set s els' fresh ∈ es →
      els' = els ∧ ∃ id, s = portSetOf chainName index protocol id) ∧
    (∀ r ∈ rulesOf es, els ≠ [] ∧ ∃ id, r = portRuleOf bo chainName policyName index protocol id) ∧
    (els ≠ [] → ∃ id, (∃ fresh, .set (portSetOf chainName index protocol id) els fresh ∈ es) ∧
      portRuleOf bo chainName policyName index protocol id ∈ rulesOf es) := by
  rcases h with ⟨hels, rfl⟩ | ⟨hne, id, fresh, isNew, rfl⟩
  · exact ⟨nofun, nofun, fun hne => absurd hels hne⟩
  · refine ⟨?_, ?_, fun _ => ⟨id, ⟨fresh, List.mem_cons_self ..⟩, List.mem_singleton_self _⟩⟩
    · intro s els' fresh' hmem
      rcases List.mem_cons.1 hmem with heq | hmem
      · cases heq
        exact ⟨rfl, id, rfl⟩
      · cases List.mem_singleton.1 hmem
    · intro r hr
      exact ⟨hne, id, List.mem_singleton.1 hr⟩

/-- **The calls of `applyPolicyPortsRules`.** -/
theorem portsCalls_of_exec (ht : chain.table = filterTableName)
    {ports : List MultiNetworkPolicyPort} {es : List Event} {u : Unit}
    (h : Exec (applyPolicyPortsRules bo chainName chain policyName ports index) es u) :
    ∃ g, collectPorts ports = .ok g ∧ PortsCalls bo chainName chain policyName index g.of es := by
  unfold applyPolicyPortsRules at h
  obtain ⟨portChain, es₁, _, h₁, hjump, rfl⟩ := exec_bind.1 h
  rw [exec_wrapErr, exec_addChain] at h₁
  -- first the chain and the jump to it
  have hshort : Chain.short ⟨chain.table, portsChainName chainName index, none⟩ =
      portsChainOf chainName index := by
    rw [Chain.short, ht]
    rfl
  obtain ⟨hchain, rfl⟩ := h₁
  rw [hshort] at hchain
  subst hchain
  obtain ⟨isNew, es₂, _, h₂, hcollect, rfl⟩ := exec_bind.1 hjump
  obtain rfl := exec_updateRule.1 h₂
  obtain ⟨g, es₃, _, h₃, hprotos, rfl⟩ := exec_bind.1 hcollect
  obtain ⟨hg, rfl⟩ := exec_ofExcept.1 h₃
  -- then the three protocols in order
  obtain ⟨_, tcp, _, htcp, hbehindTcp, rfl⟩ := exec_bind.1 hprotos
  obtain ⟨_, udp, _, hudp, hbehindUdp, rfl⟩ := exec_bind.1 hbehindTcp
  obtain ⟨_, sctp, all, hsctp, hall, rfl⟩ := exec_bind.1 hbehindUdp
  obtain ⟨tcpSets, tcpRules, tcpMem⟩ := mem_protoCalls (exec_applyProtoPorts ht htcp)
  obtain ⟨udpSets, udpRules, udpMem⟩ := mem_protoCalls (exec_applyProtoPorts ht hudp)
  obtain ⟨sctpSets, sctpRules, sctpMem⟩ := mem_protoCalls (exec_applyProtoPorts ht hsctp)
  have hsubset : ∀ {a b : List Event}, tcp ⊆ a ++ (b ++ ([] ++ (tcp ++ (udp ++ (sctp ++ all))))) ∧
      udp ⊆ a ++ (b ++ ([] ++ (tcp ++ (udp ++ (sctp ++ all))))) ∧
      sctp ⊆ a ++ (b ++ ([] ++ (tcp ++ (udp ++ (sctp ++ all))))) ∧
      all ⊆ a ++ (b ++ ([] ++ (tcp ++ (udp ++ (sctp ++ all))))) := by
    intro a b
    simp only [List.subset_def, List.mem_append]
    exact ⟨fun h => .inr (.inr (.inr (.inl h))), fun h => .inr (.inr (.inr (.inr (.inl h)))),
      fun h => .inr (.inr (.inr (.inr (.inr (.inl h))))),
      fun h => .inr (.inr (.inr (.inr (.inr (.inr h)))))⟩
  have hrules : ∀ {l l' : List Event} {r : Rule}, l ⊆ l' → r ∈ rulesOf l → r ∈ rulesOf l' := by
    intro l l' r hl hr
    obtain ⟨action, force, isNew, hmem⟩ := mem_rulesOf.1 hr
    exact mem_rulesOf.2 ⟨action, force, isNew, hl hmem⟩
  have hprotocols : (∀ protocol ∈ portProtocols, g.of protocol = []) ↔
      g.tcp = [] ∧ g.udp = [] ∧ g.sctp = [] := by
    simp [portProtocols, PortElements.of]
  -- the rule for all ports is asked for when no protocol has elements
  have hcond : (ports.length = 0 ∨ g.tcp.length = 0 ∧ g.udp.length = 0 ∧ g.sctp.length = 0) ↔
      ∀ protocol ∈ portProtocols, g.of protocol = [] := by
    rw [hprotocols, List.length_eq_zero_iff, List.length_eq_zero_iff, List.length_eq_zero_iff,
      List.length_eq_zero_iff, or_iff_right_iff_imp]
    rintro rfl
    obtain rfl := Except.ok.inj hg
    exact ⟨rfl, rfl, rfl⟩
  have hall' : (∀ s els fresh, .set s els fresh ∉ all) ∧
      (∀ r ∈ rulesOf all, (∀ protocol ∈ portProtocols, g.of protocol = []) ∧
        r = allPortsRule bo chainName policyName index) ∧
      ((∀ protocol ∈ portProtocols, g.of protocol = []) →
        allPortsRule bo chainName policyName index ∈ rulesOf all) := by
    rcases exec_when.1 hall with ⟨hc, hall⟩ | ⟨hc, rfl⟩
    · obtain ⟨isNew, es₄, es₅, h₄, h₅, rfl⟩ := exec_bind.1 hall
      obtain rfl := exec_updateRule.1 h₄
      obtain ⟨-, rfl⟩ := exec_pure.1 h₅
      refine ⟨fun s els fresh hmem => ?_, fun r hr => ⟨hcond.1 hc, List.mem_singleton.1 hr⟩,
        fun _ => List.mem_singleton_self _⟩
      cases List.mem_singleton.1 hmem
    · exact ⟨fun _ _ _ => List.not_mem_nil, List.forall_mem_nil _,
        fun hempty => absurd (hcond.2 hempty) hc⟩
  obtain ⟨htcpIn, hudpIn, hsctpIn, hallIn⟩ := hsubset
  refine ⟨g, hg, ?_, ?_, ?_, fun hempty => ?_⟩
  · intro s els fresh hmem
    simp only [List.mem_append, List.mem_cons, reduceCtorEq, List.not_mem_nil, false_or] at hmem
    rcases hmem with hmem | hmem | hmem | hmem
    · exact ⟨.tcp, by decide, tcpSets s els fresh hmem⟩
    · exact ⟨.udp, by decide, udpSets s els fresh hmem⟩
    · exact ⟨.sctp, by decide, sctpSets s els fresh hmem⟩
    · exact absurd hmem (hall'.1 s els fresh)
  · intro r hr
    simp only [rulesOf_append, List.mem_append] at hr
    rcases hr with hr | hr | hr | hr | hr | hr | hr
    · cases hr
    · exact .inl (List.mem_singleton.1 hr)
    · cases hr
    · exact .inr (.inl ⟨.tcp, by decide, tcpRules r hr⟩)
    · exact .inr (.inl ⟨.udp, by decide, udpRules r hr⟩)
    · exact .inr (.inl ⟨.sctp, by decide, sctpRules r hr⟩)
    · exact .inr (.inr (hall'.2.1 r hr))
  · intro protocol hp hne
    simp only [portProtocols, List.mem_cons, List.not_mem_nil, or_false] at hp
    rcases hp with rfl | rfl | rfl
    · obtain ⟨id, ⟨fresh, hset⟩, hrule⟩ := tcpMem hne
      exact ⟨id, ⟨fresh, htcpIn hset⟩, hrules htcpIn hrule⟩
    · obtain ⟨id, ⟨fresh, hset⟩, hrule⟩ := udpMem hne
      exact ⟨id, ⟨fresh, hudpIn hset⟩, hrules hudpIn hrule⟩
    · obtain ⟨id, ⟨fresh, hset⟩, hrule⟩ := sctpMem hne
      exact ⟨id, ⟨fresh, hsctpIn hset⟩, hrules hsctpIn hrule⟩
  · exact hrules hallIn (hall'.2.2 hempty)

end Render

/-! ### The committed chain -/

open Render

/-- The rules of a chain that was empty are those that were asked for. -/
theorem mem_chainRules_of_empty {k : Kernel} (wf : k.WF) {es : List Event} {ops : List Op}
    (hq : Queued k es ops) {t c : Str} (hempty : k.chainRules t c = []) {x : Rule} :
    x ∈ (k.commit ops).chainRules t c ↔
      ∃ r ∈ rulesOf es, (r.table = t ∧ r.chain = c) ∧ r.content = x := by
  have hself : Layered k k [] (fun _ => true) [] :=
      ⟨le_rfl, [], [], by simp, rfl, rfl, nofun, nofun⟩
  have hlayered := Layered.events wf hq hself
  have hview : ∀ p, inView t c (k.rules.filter p) = [] := by
    intro p
    rw [List.eq_nil_iff_forall_not_mem]
    intro y hy
    obtain ⟨r, hr, hin, rfl⟩ := mem_inView.1 hy
    rw [Kernel.chainRules_eq, List.eq_nil_iff_forall_not_mem] at hempty
    exact hempty r.content (mem_inView.2 ⟨r, List.mem_of_mem_filter hr, hin, rfl⟩)
  have hadded : ∀ action, x ∈ inView t c ((addedBy action es).map Rule.erase) ↔
      ∃ r force isNew, .rule r action force isNew ∈ es ∧ (force = true ∨ isNew = true) ∧
        (r.table = t ∧ r.chain = c) ∧ r.content = x := by
    intro action
    rw [inView_map_erase, mem_inView]
    simp only [mem_addedBy]
    constructor
    · rintro ⟨r, ⟨force, isNew, hadd, hmem⟩, hin, hx⟩
      exact ⟨r, force, isNew, hmem, hadd, hin, hx⟩
    · rintro ⟨r, force, isNew, hmem, hadd, hin, hx⟩
      exact ⟨r, ⟨force, isNew, hadd, hmem⟩, hin, hx⟩
  rw [hlayered.chainRules t c, hview]
  simp only [List.append_nil, List.nil_append, List.mem_append, inView_reverse, List.mem_reverse,
    hadded]
  constructor
  · rintro (⟨r, force, isNew, hmem, -, hin, hx⟩ | ⟨r, force, isNew, hmem, -, hin, hx⟩)
    · exact ⟨r, mem_rulesOf.2 ⟨_, force, isNew, hmem⟩, hin, hx⟩
    · exact ⟨r, mem_rulesOf.2 ⟨_, force, isNew, hmem⟩, hin, hx⟩
  · rintro ⟨r, hr, hin, hx⟩
    obtain ⟨action, force, isNew, hmem⟩ := mem_rulesOf.1 hr
    -- the chain has no rule that could be found
    have hnew : isNew = true := by
      rw [hq.answers r action force isNew hmem, Kernel.lacks, Option.isNone_iff_eq_none]
      cases hf : k.findRule r with
      | none => rfl
      | some e =>
        obtain ⟨r₀, hr₀, ht, hc, -⟩ := Kernel.exists_of_findRule hf
        rw [Kernel.chainRules_eq, List.eq_nil_iff_forall_not_mem] at hempty
        refine absurd (mem_inView.2 ⟨r₀, hr₀, ⟨ht.trans hin.1, hc.trans hin.2⟩, rfl⟩)
          (hempty r₀.content)
    cases action with
    | insertRule => exact .inl ⟨r, force, isNew, hmem, .inr hnew, hin, hx⟩
    | addRule => exact .inr ⟨r, force, isNew, hmem, .inr hnew, hin, hx⟩

section Eval

variable {bo : ByteOrder} {k : Kernel} {pkt : Packet} {chainName policyName : Str} {index : Nat}

/-- The packet goes to a port of a protocol. -/
def Packet.GoesTo (pkt : Packet) (protocol : Protocol) (q : Nat) : Prop :=
  pkt.l4proto = (getProtocolInfo protocol).2 ∧
    slice pkt.transportHeader 2 2 = some (NetIP.beBytes 2 q)

instance (protocol : Protocol) (q : Nat) : Decidable (pkt.GoesTo protocol q) :=
  inferInstanceAs (Decidable (_ ∧ _))

theorem portsRule_portRuleOf (protocol : Protocol) (id : Nat) :
    PortsRule bo (portRuleOf bo chainName policyName index protocol id) :=
  ⟨portIn _ (portSetOf chainName index protocol id), rfl, rfl⟩

theorem portsRule_allPortsRule : PortsRule bo (allPortsRule bo chainName policyName index) :=
  ⟨[.counter], rfl, rfl⟩

/-- The rule for all ports matches every packet. -/
theorem isHit_allPortsRule : (allPortsRule bo chainName policyName index).content.isHit bo k pkt =
    true := by
  have hexprs : (allPortsRule bo chainName policyName index).content.exprs =
      [.counter] ++ setMark bo portRuleMark := rfl
  rw [Rule.isHit, Rule.guards_eq rfl rfl hexprs]
  rfl

/-- The rule of a protocol matches the packets to the ports of its set. -/
theorem isHit_portRuleOf {protocol protocol' : Protocol} (hp : protocol ∈ portProtocols)
    (hp' : protocol' ∈ portProtocols) (id : Nat) {q : Nat} (hpkt : pkt.GoesTo protocol q) :
    (portRuleOf bo chainName policyName index protocol' id).content.isHit bo k pkt = true ↔
      protocol' = protocol ∧
        k.lookupSet filterTableName (portSetName chainName index protocol) (NetIP.beBytes 2 q) =
          true := by
  have hexprs : (portRuleOf bo chainName policyName index protocol' id).content.exprs =
      portIn (getProtocolInfo protocol').2 (portSetOf chainName index protocol' 0) ++
        setMark bo portRuleMark := rfl
  -- the protocol number tells the protocol
  have hinfo : (getProtocolInfo protocol).2 = (getProtocolInfo protocol').2 ↔
      protocol' = protocol := by
    have hall : ∀ a ∈ portProtocols, ∀ b ∈ portProtocols,
        ((getProtocolInfo a).2 = (getProtocolInfo b).2 ↔ b = a) := by decide
    exact hall protocol hp protocol' hp'
  have hhit : (portRuleOf bo chainName policyName index protocol' id).content.isHit bo k pkt =
      (decide (pkt.l4proto = (getProtocolInfo protocol').2) &&
        (slice pkt.transportHeader 2 2).any
          (k.lookupSet filterTableName (portSetName chainName index protocol'))) := by
    have hcmp : cmpMatches .eq [pkt.l4proto] [(getProtocolInfo protocol').2] =
        decide (pkt.l4proto = (getProtocolInfo protocol').2) := by
      rw [Bool.eq_iff_iff]
      simp [cmpMatches]
    rw [Rule.isHit, Rule.guards_eq (by rfl) rfl hexprs]
    simp only [holds, portIn, protocolIs, List.cons_append, List.nil_append, guardRegs, evalExpr,
      Packet.metaValue, Packet.payloadValue, ExprResult.load, ExprResult.guard,
        Function.update_self,
      Option.any_some, hcmp]
    cases decide (pkt.l4proto = (getProtocolInfo protocol').2) with
    | false => rfl
    | true =>
      cases slice pkt.transportHeader 2 2 with
      | none => rfl
      | some v =>
        simp only [if_true, Function.update_self, Option.any_some, Bool.true_and]
        rw [show (portSetOf chainName index protocol' 0).name =
          portSetName chainName index protocol' from rfl]
        cases k.lookupSet filterTableName (portSetName chainName index protocol') v <;> rfl
  rw [hhit, hpkt.1, hpkt.2, Option.any_some, Bool.and_eq_true, decide_eq_true_eq, hinfo]
  constructor
  · rintro ⟨rfl, h⟩
    exact ⟨rfl, h⟩
  · rintro ⟨rfl, h⟩
    exact ⟨rfl, h⟩

/-- The ports chain of a rule is empty, and its sets are not there. -/
structure FreshPorts (k : Kernel) (chainName : Str) (index : Nat) : Prop where
  chain : k.chainRules filterTableName (portsChainOf chainName index).name = []
  sets : ∀ protocol ∈ portProtocols,
    k.findSet filterTableName (portSetName chainName index protocol) = none ∧
      k.getElements filterTableName (portSetName chainName index protocol) = []

variable {chain : Chain} {els : Protocol → List SetElement} {es : List Event} {ops : List Op}
  (hq : Queued k es ops) (hcalls : PortsCalls bo chainName chain policyName index els es)
  (hfresh : FreshPorts k chainName index)
  (hnames : (portProtocols.map (portSetName chainName index)).Nodup)
include hq hcalls hfresh hnames

/-- The set of a protocol holds the elements of the protocol. -/
theorem contents_portSet {protocol : Protocol} (hp : protocol ∈ portProtocols) (y : Str × Bool) :
    y ∈ contentsOf ((k.commit ops).getElements filterTableName
      (portSetName chainName index protocol)) ↔ y ∈ contentsOf (els protocol) := by
  rw [hq.mem_contents, (hfresh.sets protocol hp).2]
  have hnil : y ∉ contentsOf [] := nofun
  simp only [hnil, false_and, false_or]
  constructor
  · rintro ⟨e, he, hputs⟩
    cases e with
    | chain c => exact hputs.elim
    | rule r action force isNew => exact hputs.elim
    | set s els' fresh =>
      obtain ⟨⟨-, hname⟩, hy, -⟩ := hputs
      obtain ⟨protocol', hp', rfl, id, rfl⟩ := hcalls.set_of_mem s els' fresh he
      obtain rfl := List.inj_on_of_nodup_map hnames hp' hp hname
      exact hy
  · intro hy
    have hne : els protocol ≠ [] := by
      intro hnil
      rw [hnil] at hy
      cases hy
    obtain ⟨id, ⟨fresh, hset⟩, -⟩ := hcalls.protocol_mem protocol hp hne
    refine ⟨_, hset, ⟨rfl, rfl⟩, hy, fun _ d hd => ?_⟩
    rw [(hfresh.sets protocol hp).2] at hd
    cases hd

/-- The rule of a protocol looks up an interval set. -/
theorem lookup_portSet {protocol : Protocol} (hp : protocol ∈ portProtocols) (key : Str) :
    (k.commit ops).lookupSet filterTableName (portSetName chainName index protocol) key =
      setContains true ((k.commit ops).getElements filterTableName
        (portSetName chainName index protocol)) key := by
  unfold Kernel.lookupSet
  cases hf : (k.commit ops).findSet filterTableName (portSetName chainName index protocol) with
  | some s =>
    rw [hq.findSet (hfresh.sets protocol hp).1, (hfresh.sets protocol hp).1, Option.none_or] at hf
    obtain ⟨e, he, hs⟩ := List.exists_of_findSome?_eq_some hf
    cases e with
    | chain c => cases hs
    | rule r action force isNew => cases hs
    | set s' els' fresh =>
      simp only [Event.setFor, Option.ite_none_right_eq_some] at hs
      obtain rfl := Option.some.inj hs.2
      obtain ⟨protocol', -, -, id, rfl⟩ := hcalls.set_of_mem _ els' fresh he
      rfl
  | none =>
    -- without a call for the set there are no elements
    have hels : els protocol = [] := by
      by_contra hne
      obtain ⟨id, ⟨fresh, hset⟩, -⟩ := hcalls.protocol_mem protocol hp hne
      rw [hq.findSet (hfresh.sets protocol hp).1, (hfresh.sets protocol hp).1, Option.none_or,
        List.findSome?_eq_none_iff] at hf
      have hnone := hf _ hset
      simp only [Event.setFor] at hnone
      rw [if_pos ⟨rfl, rfl⟩] at hnone
      cases hnone
    have hempty : ∀ y, y ∈ contentsOf ((k.commit ops).getElements filterTableName
        (portSetName chainName index protocol)) ↔ y ∈ contentsOf [] := by
      intro y
      rw [contents_portSet hq hcalls hfresh hnames hp, hels]
    rw [setContains_congr hempty]
    rfl

/-- **What the committed ports chain does.** -/
theorem setsMark_portsChain (wf : k.WF) (hchain : chain.name ≠ (portsChainOf chainName index).name)
    {protocol : Protocol} (hp : protocol ∈ portProtocols) {q : Nat} (hpkt : pkt.GoesTo protocol q)
    (m : BitVec 32) :
    SetsMark bo (k.commit ops) pkt m (portsChainOf chainName index).name portRuleMark ↔
      (∀ protocol ∈ portProtocols, els protocol = []) ∨
        setContains true ((k.commit ops).getElements filterTableName
          (portSetName chainName index protocol)) (NetIP.beBytes 2 q) = true := by
  -- the chain was empty, so its rules are those that were asked for
  have hrules : ∀ {x : Rule},
      x ∈ (k.commit ops).chainRules filterTableName (portsChainOf chainName index).name ↔
        (∃ protocol ∈ portProtocols, ∃ id,
          portRuleOf bo chainName policyName index protocol id ∈ rulesOf es ∧
          (portRuleOf bo chainName policyName index protocol id).content = x) ∨
        (∀ protocol ∈ portProtocols, els protocol = []) ∧
          (allPortsRule bo chainName policyName index).content = x := by
    intro x
    rw [mem_chainRules_of_empty wf hq hfresh.chain]
    constructor
    · rintro ⟨r, hr, ⟨-, hc⟩, rfl⟩
      rcases hcalls.rule_of_mem r hr with rfl | ⟨protocol', hp', -, id, rfl⟩ | ⟨hall, rfl⟩
      · exact absurd hc hchain
      · exact .inl ⟨protocol', hp', id, hr, rfl⟩
      · exact .inr ⟨hall, rfl⟩
    · rintro (⟨protocol', hp', id, hr, rfl⟩ | ⟨hall, rfl⟩)
      · exact ⟨_, hr, ⟨rfl, rfl⟩, rfl⟩
      · exact ⟨_, hcalls.all_mem hall, ⟨rfl, rfl⟩, rfl⟩
  rw [setsMark_ports_iff, List.any_eq_true]
  · constructor
    · rintro ⟨x, hx, hhit⟩
      rcases hrules.1 hx with ⟨protocol', hp', id, -, rfl⟩ | ⟨hall, -⟩
      · obtain ⟨-, hlookup⟩ := (isHit_portRuleOf hp hp' id hpkt).1 hhit
        rw [lookup_portSet hq hcalls hfresh hnames hp] at hlookup
        exact .inr hlookup
      · exact .inl hall
    · rintro (hall | hlookup)
      · exact ⟨_, hrules.2 (.inr ⟨hall, rfl⟩), isHit_allPortsRule⟩
      · have hne : els protocol ≠ [] := by
          intro hnil
          rw [setContains_congr (b := []) fun y => by
            rw [contents_portSet hq hcalls hfresh hnames hp, hnil]] at hlookup
          cases hlookup
        obtain ⟨id, -, hr⟩ := hcalls.protocol_mem protocol hp hne
        refine ⟨_, hrules.2 (.inl ⟨protocol, hp, id, hr, rfl⟩), ?_⟩
        rw [isHit_portRuleOf hp hp id hpkt, lookup_portSet hq hcalls hfresh hnames hp]
        exact ⟨rfl, hlookup⟩
  · intro x hx
    rcases hrules.1 hx with ⟨protocol', -, id, -, rfl⟩ | ⟨-, rfl⟩
    · exact (portsRule_portRuleOf protocol' id).content
    · exact portsRule_allPortsRule.content

end Eval

/-! ### The union of the entries -/

/-- In every protocol no range ends inside another one unless a further one starts there, and an
entry without protocol and port stands among such entries only, or beside entries that have all
ports of all protocols. -/
def UnbrokenPorts (ports : List MultiNetworkPolicyPort) : Prop :=
  (∀ protocol ∈ portProtocols, Unbroken (rangesFor ports protocol)) ∧
    ((∀ entry ∈ ports, ¬ entry.IsWildcard) ∨ (∀ entry ∈ ports, entry.IsWildcard) ∨
      ∀ protocol ∈ portProtocols, ∀ q ≤ 65535, 1 ≤ q → Covered (rangesFor ports protocol) q)

section Union

variable {ports : List MultiNetworkPolicyPort}
  (haccepted : ∀ entry ∈ ports, ∃ els, entry.Accepted els)
include haccepted

/-- No protocol has a range when all entries are wildcards. -/
theorem rangesFor_eq_nil_iff
    (hprotocols : ∀ entry ∈ ports, entry.protocol.getD .tcp ∈ portProtocols) :
    (∀ protocol ∈ portProtocols, rangesFor ports protocol = []) ↔
      ∀ entry ∈ ports, entry.IsWildcard := by
  constructor
  · intro hnil entry hentry
    obtain ⟨els, hels⟩ := haccepted entry hentry
    cases hels with
    | wildcard hw => exact hw
    | ports first last hw hfirst hle hlast hrange hmatches =>
      have hmem : portsBetween first last ∈ rangesFor ports (entry.protocol.getD .tcp) :=
        List.mem_filterMap.2 ⟨entry, List.mem_filter.2 ⟨hentry, decide_eq_true rfl⟩, hrange⟩
      rw [hnil _ (hprotocols entry hentry)] at hmem
      cases hmem
  · intro hall protocol _
    rw [List.eq_nil_iff_forall_not_mem]
    intro r hr
    obtain ⟨entry, hentry, -, -, hw, -⟩ := exists_of_mem_rangesFor haccepted hr
    exact hw (hall entry hentry)

/-- Which packets some entry matches. -/
theorem exists_matches_iff {protocol : Protocol} {q : Nat} (hq : q ≤ 65535) (hq₁ : 1 ≤ q) :
    (∃ entry ∈ ports, entry.Matches protocol q) ↔
      (∃ entry ∈ ports, entry.IsWildcard) ∨ Covered (rangesFor ports protocol) q := by
  rw [covered_rangesFor haccepted hq hq₁]
  constructor
  · rintro ⟨entry, hentry, hmatch⟩
    by_cases hw : entry.IsWildcard
    · exact .inl ⟨entry, hentry, hw⟩
    · exact .inr ⟨entry, hentry, hw, hmatch⟩
  · rintro (⟨entry, hentry, hw⟩ | ⟨entry, hentry, -, hmatch⟩)
    · refine ⟨entry, hentry, ?_⟩
      simp [MultiNetworkPolicyPort.Matches, hw.1, hw.2]
    · exact ⟨entry, hentry, hmatch⟩

/-- The markers of every protocol, or the rule for all ports, match the union of the entries exactly
when the ports are unbroken. -/
theorem marked_iff_unbrokenPorts
    (hprotocols : ∀ entry ∈ ports, entry.protocol.getD .tcp ∈ portProtocols) :
    (∀ protocol ∈ portProtocols, ∀ q ≤ 65535, 1 ≤ q →
      ((∀ entry ∈ ports, entry.IsWildcard) ∨
          Marked ((rangesFor ports protocol).map HalfOpen.first)
            ((rangesFor ports protocol).map endOf ++ []) q ↔
        ports = [] ∨ ∃ entry ∈ ports, entry.Matches protocol q)) ↔ UnbrokenPorts ports := by
  have hmarkers := fun protocol => @markersOf_ranges (rangesFor ports protocol) [] nofun
  by_cases hall : ∀ entry ∈ ports, entry.IsWildcard
  · have hnil := (rangesFor_eq_nil_iff haccepted hprotocols).2 hall
    have hunbroken : UnbrokenPorts ports := by
      refine ⟨fun protocol hp => ?_, .inr (.inl hall)⟩
      rw [hnil protocol hp]
      exact nofun
    refine iff_of_true (fun protocol hp q hq hq₁ => ?_) hunbroken
    rw [exists_matches_iff haccepted hq hq₁]
    refine iff_of_true (.inl hall) ?_
    cases ports with
    | nil => exact .inl rfl
    | cons entry rest =>
      exact .inr (.inl ⟨entry, List.mem_cons_self .., hall entry (List.mem_cons_self ..)⟩)
  · have hne : ports ≠ [] := by
      rintro rfl
      exact hall nofun
    -- an interval that does not run to the last port ends at a port
    have hends : ∀ protocol, ∀ r ∈ rangesFor ports protocol, ∀ e ∈ r.after, e ≤ 65535 ∧ 1 ≤ e := by
      intro protocol r hr e he
      obtain ⟨-, -, -, -, -, -, -, hafter, -⟩ := exists_of_mem_rangesFor haccepted hr
      exact ⟨(hafter e he).2, (hafter e he).1⟩
    -- ports are marked where the intervals do not break one another
    have hmarked := fun protocol => marked_of_covered_iff (hmarkers protocol)
      (D := fun q => q ≤ 65535 ∧ 1 ≤ q) (hends protocol)
    unfold UnbrokenPorts
    by_cases hwild : ∃ entry ∈ ports, entry.IsWildcard
    · -- a wildcard beside other entries: everything has to be marked
      have hsome : ¬ ∀ entry ∈ ports, ¬ entry.IsWildcard := by
        push Not
        exact hwild
      simp only [hall, false_or, hne, hsome]
      constructor
      · intro h
        have hmark : ∀ protocol ∈ portProtocols, ∀ q ≤ 65535, 1 ≤ q →
            Marked ((rangesFor ports protocol).map HalfOpen.first)
              ((rangesFor ports protocol).map endOf ++ []) q := by
          intro protocol hp q hq hq₁
          rw [h protocol hp q hq hq₁, exists_matches_iff haccepted hq hq₁]
          exact .inl hwild
        have hcovered : ∀ protocol ∈ portProtocols, ∀ q ≤ 65535, 1 ≤ q →
            Covered (rangesFor ports protocol) q := fun protocol hp q hq hq₁ =>
          (hmark protocol hp q hq hq₁).covered (hmarkers protocol)
        refine ⟨fun protocol hp => (hmarked protocol).1 fun q hq => ?_, hcovered⟩
        exact iff_of_true (hmark protocol hp q hq.1 hq.2) (hcovered protocol hp q hq.1 hq.2)
      · rintro ⟨hunbroken, hcovered⟩ protocol hp q hq hq₁
        rw [exists_matches_iff haccepted hq hq₁]
        refine iff_of_true ?_ (.inl hwild)
        exact ((hmarked protocol).2 (hunbroken protocol hp) q ⟨hq, hq₁⟩).2
          (hcovered protocol hp q hq hq₁)
    · have hno : ∀ entry ∈ ports, ¬ entry.IsWildcard := by
        push Not at hwild
        exact hwild
      simp only [hall, false_or, hne]
      rw [and_iff_left (.inl hno)]
      refine forall₂_congr fun protocol _ => ?_
      rw [← hmarked protocol]
      constructor
      · rintro h q ⟨hq, hq₁⟩
        rw [h q hq hq₁, exists_matches_iff haccepted hq hq₁]
        exact or_iff_right hwild
      · intro h q hq hq₁
        rw [h q ⟨hq, hq₁⟩, exists_matches_iff haccepted hq hq₁]
        exact (or_iff_right hwild).symm

end Union

/-- A packet to a port. -/
def packetTo (protocol : Protocol) (q : Nat) : Packet where
  iifname := []
  oifname := []
  nfproto := nfprotoIPv4
  l4proto := (getProtocolInfo protocol).2
  ctState := 0
  networkHeader := []
  transportHeader := [0, 0] ++ NetIP.beBytes 2 q

theorem goesTo_packetTo (protocol : Protocol) (q : Nat) : (packetTo protocol q).GoesTo protocol q :=
  ⟨rfl, rfl⟩

/-- **A ports chain that has just been rendered matches the union of the rule's entries exactly when
the entries are unbroken.** -/
theorem ports_chain_matches_iff {h : Host} {k : Kernel} (wf : k.WF) {chainName policyName : Str}
    {chain : Chain} (ht : chain.table = filterTableName) {index : Nat}
    (hchain : chain.name ≠ (portsChainOf chainName index).name)
    (hfresh : FreshPorts k chainName index)
    (hnames : (portProtocols.map (portSetName chainName index)).Nodup)
    {ports : List MultiNetworkPolicyPort}
    (hprotocols : ∀ entry ∈ ports, entry.protocol.getD .tcp ∈ portProtocols) {s : State}
    (hs : (applyPolicyPortsRules h.byteOrder chainName chain policyName ports index).run h
      (State.new k) = .ok () s) :
    (∀ pkt protocol q, protocol ∈ portProtocols → 1 ≤ q → q ≤ 65535 → pkt.GoesTo protocol q → ∀ m,
      (SetsMark h.byteOrder (s.kernel.commit s.messages) pkt m (portsChainOf chainName index).name
          portRuleMark ↔
        ports = [] ∨ ∃ entry ∈ ports, entry.Matches protocol q)) ↔ UnbrokenPorts ports := by
  obtain ⟨es, hexec, hadvance⟩ := run_ok hs
  obtain ⟨ops, hq, hmessages⟩ := hadvance.messages
  change Queued k es ops at hq
  have hcommit : s.kernel.commit s.messages = k.commit ops := by
    rw [hadvance.kernel, hmessages]
    rfl
  obtain ⟨g, hg, hcalls⟩ := portsCalls_of_exec ht hexec
  obtain ⟨haccepted, hels⟩ := collectPorts_eq_ok hg hprotocols
  have hempty : (∀ protocol ∈ portProtocols, g.of protocol = []) ↔
      ∀ entry ∈ ports, entry.IsWildcard := by
    rw [← rangesFor_eq_nil_iff haccepted hprotocols]
    refine forall₂_congr fun protocol hp => ?_
    rw [hels protocol hp, List.flatMap_eq_nil_iff, List.eq_nil_iff_forall_not_mem]
    exact forall₂_congr fun r _ => iff_of_false (List.cons_ne_nil _ _) id
  -- what the committed chain does, in terms of the intervals
  have hmark : ∀ {pkt protocol q}, protocol ∈ portProtocols → q ≤ 65535 →
      pkt.GoesTo protocol q → ∀ m, (SetsMark h.byteOrder (s.kernel.commit s.messages) pkt m
        (portsChainOf chainName index).name portRuleMark ↔
          (∀ entry ∈ ports, entry.IsWildcard) ∨
            Marked ((rangesFor ports protocol).map HalfOpen.first)
              ((rangesFor ports protocol).map endOf ++ []) q) := by
    intro pkt protocol q hp hqle hpkt m
    rw [hcommit, setsMark_portsChain hq hcalls hfresh hnames wf hchain hp hpkt, hempty,
      setContains_rangesFor haccepted (fun y => ?_) hqle]
    rw [← hels protocol hp]
    exact contents_portSet hq hcalls hfresh hnames hp y
  rw [← marked_iff_unbrokenPorts haccepted hprotocols]
  constructor
  · intro hunion protocol hp q hqle hq₁
    rw [← hmark hp hqle (goesTo_packetTo protocol q) 0]
    exact hunion _ protocol q hp hq₁ hqle (goesTo_packetTo protocol q) 0
  · intro hunion pkt protocol q hp hq₁ hqle hpkt m
    rw [hmark hp hqle hpkt]
    exact hunion protocol hp q hqle hq₁

/-- The state behind the ports chain of a rule, rendered in a new network namespace. -/
def renderedPorts (ports : List MultiNetworkPolicyPort) : Option State :=
  match (applyPolicyPortsRules Host.reliable.byteOrder (str "p") ⟨filterTableName, str "p", none⟩
    (str "p") ports 0).run Host.reliable (State.new Kernel.empty) with
  | .ok _ s => some s
  | .error _ _ => none

theorem renderedPorts_eq_some {ports : List MultiNetworkPolicyPort} {s : State}
    (hs : renderedPorts ports = some s) :
    (applyPolicyPortsRules Host.reliable.byteOrder (str "p") ⟨filterTableName, str "p", none⟩
      (str "p") ports 0).run Host.reliable (State.new Kernel.empty) = .ok () s := by
  unfold renderedPorts at hs
  split at hs
  · rename_i heq
    obtain rfl := Option.some.inj hs
    exact heq
  · cases hs

/-- Two ranges of TCP ports, one behind the other, and a UDP port. -/
def separatePorts : List MultiNetworkPolicyPort :=
  [⟨some .tcp, some (.int 80), some 90⟩, ⟨none, some (.string (str "91")), none⟩,
    ⟨some .udp, some (.int 53), none⟩]

set_option maxRecDepth 100000 in
/-- Ranges that do not overlap match their union. -/
theorem separate_ports_match : ∃ s, renderedPorts separatePorts = some s ∧
    ∀ pkt protocol q, protocol ∈ portProtocols → 1 ≤ q → q ≤ 65535 → pkt.GoesTo protocol q → ∀ m,
      (SetsMark .little (s.kernel.commit s.messages) pkt m (portsChainOf (str "p") 0).name
          portRuleMark ↔
        separatePorts = [] ∨ ∃ entry ∈ separatePorts, entry.Matches protocol q) := by
  have hrun : (renderedPorts separatePorts).isSome = true := by decide +kernel
  obtain ⟨s, hs⟩ := Option.isSome_iff_exists.1 hrun
  have hunbroken : UnbrokenPorts separatePorts := ⟨by decide +kernel, .inl (by decide)⟩
  exact ⟨s, hs, (ports_chain_matches_iff .empty rfl (by decide) ⟨rfl, by decide +kernel⟩
    (by decide +kernel) (by decide) (renderedPorts_eq_some hs)).2 hunbroken⟩

/-- A range of TCP ports, alone and with one of its ports behind it. -/
def nestedPorts : List MultiNetworkPolicyPort :=
  [⟨some .tcp, some (.int 80), some 90⟩, ⟨some .tcp, some (.int 85), none⟩]

set_option maxRecDepth 100000 in
/-- **An entry inside another one revokes the ports behind it**, and an entry without protocol and
port beside another one matches nothing. -/
theorem nested_port_revokes : ∃ s₁ s₂ s₃,
    renderedPorts [⟨some .tcp, some (.int 80), some 90⟩] = some s₁ ∧
    renderedPorts nestedPorts = some s₂ ∧
    renderedPorts [⟨none, none, none⟩, ⟨some .tcp, some (.int 80), none⟩] = some s₃ ∧
    SetsMark .little (s₁.kernel.commit s₁.messages) (packetTo .tcp 88) 0
      (portsChainOf (str "p") 0).name portRuleMark ∧
    ¬ SetsMark .little (s₂.kernel.commit s₂.messages) (packetTo .tcp 88) 0
      (portsChainOf (str "p") 0).name portRuleMark ∧
    (∃ entry ∈ nestedPorts, entry.Matches .tcp 88) ∧
    ¬ SetsMark .little (s₃.kernel.commit s₃.messages) (packetTo .tcp 443) 0
      (portsChainOf (str "p") 0).name portRuleMark := by
  have hrun : (renderedPorts [⟨some .tcp, some (.int 80), some 90⟩]).any (fun s₁ =>
      (renderedPorts nestedPorts).any fun s₂ =>
      (renderedPorts [⟨none, none, none⟩, ⟨some .tcp, some (.int 80), none⟩]).any fun s₃ => decide
        (SetsMark .little (s₁.kernel.commit s₁.messages) (packetTo .tcp 88) 0
          (portsChainOf (str "p") 0).name portRuleMark ∧
        ¬ SetsMark .little (s₂.kernel.commit s₂.messages) (packetTo .tcp 88) 0
          (portsChainOf (str "p") 0).name portRuleMark ∧
        ¬ SetsMark .little (s₃.kernel.commit s₃.messages) (packetTo .tcp 443) 0
          (portsChainOf (str "p") 0).name portRuleMark)) = true := by
    decide +kernel
  obtain ⟨s₁, hs₁, hrun⟩ := (Option.any_eq_true _ _).1 hrun
  obtain ⟨s₂, hs₂, hrun⟩ := (Option.any_eq_true _ _).1 hrun
  obtain ⟨s₃, hs₃, hrun⟩ := (Option.any_eq_true _ _).1 hrun
  obtain ⟨h₁, h₂, h₃⟩ := of_decide_eq_true hrun
  refine ⟨s₁, s₂, s₃, hs₁, hs₂, hs₃, h₁, h₂, ?_, h₃⟩
  exact ⟨_, List.mem_cons_self .., rfl, 80, rfl, by decide, by decide⟩

end MultiNetPolicy
