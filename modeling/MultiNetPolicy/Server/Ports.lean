import MultiNetPolicy.Server.Common

/-!
# Ports chains

The ports chain of a policy rule: one interval set and one rule for each protocol that has ports,
or a single rule that accepts every port.  A rule that matches sets the port mark.
-/

namespace MultiNetPolicy

open ByteString

/-- Set a bit of the packet mark: clear it, then flip it. -/
def setMark (bo : ByteOrder) (bit : BitVec 32) : List Expr :=
  [.metaExpr .mark false 1, .bitwise 1 1 4 (bo.putUint32 (~~~bit)) (bo.putUint32 bit),
    .metaExpr .mark true 1]

/-- `getProtocolInfo`. -/
def getProtocolInfo : Protocol → Str × UInt8
  | .udp => (str "udp", ipprotoUDP)
  | .sctp => (str "sctp", ipprotoSCTP)
  | _ => (str "tcp", ipprotoTCP)

/-! ### Port elements -/

/-- `math.MaxUint16`. -/
def maxUint16 : Int := 65535

/-- `BigEndian.PutUint16` of a value that wraps around at 65536. -/
def putUint16 (v : Int) : Str := NetIP.beBytes 2 (v % 65536).toNat

def portRangeError (portNum : Int) : Error :=
  .text (str "port " ++ decimalInt portNum ++ str " out of range, must be between 1 and " ++
    decimalInt maxUint16)

/-- The elements of the ports `portNum` to `endPort`, a half-open interval. -/
def portElements (portNum : Int) (endPort : Option Int) : Except Error (List SetElement) :=
  if portNum < 1 ∨ portNum > maxUint16 then .error (portRangeError portNum)
  else
    match endPort with
    | some e =>
      if e > portNum then
        -- the message names the port, not the end port
        if e < 1 ∨ e > maxUint16 then .error (portRangeError portNum)
        else .ok [⟨putUint16 portNum, false, []⟩, ⟨putUint16 (e + 1), true, []⟩]
      else .ok [⟨putUint16 portNum, false, []⟩, ⟨putUint16 (portNum + 1), true, []⟩]
    | none => .ok [⟨putUint16 portNum, false, []⟩, ⟨putUint16 (portNum + 1), true, []⟩]

/-- `validatePortSpec`. -/
def validatePortSpec (port : MultiNetworkPolicyPort) : Except Error (List SetElement) :=
  match port.port with
  | none => .ok []
  | some (.int v) => portElements v port.endPort
  | some (.string s) =>
    match atoi s with
    | none => .error (.text (str "named port " ++ quote s ++
        str " is not supported; numeric ports are required"))
    | some v =>
      if v < 1 ∨ v > maxUint16 then
        .error (.text (str "named port " ++ quote s ++
          str " is not supported; numeric ports are required"))
      else portElements v port.endPort

/-- A protocol without a port stands for all its ports. -/
def fillPort (port : MultiNetworkPolicyPort) : MultiNetworkPolicyPort :=
  if port.port = none ∧ port.protocol ≠ none then
    { port with port := some (.int 1), endPort := some maxUint16 }
  else port

/-- The elements of a rule's ports by protocol. -/
structure PortElements where
  tcp : List SetElement
  udp : List SetElement
  sctp : List SetElement
  deriving DecidableEq, Repr

/-- The loop of `applyPolicyPortsRules` over the ports. -/
def collectPorts : List MultiNetworkPolicyPort → Except Error PortElements
  | [] => .ok ⟨[], [], []⟩
  | port :: rest =>
    match validatePortSpec (fillPort port) with
    | .error e => .error e
    | .ok els =>
      match collectPorts rest with
      | .error e => .error e
      | .ok g =>
        .ok (match port.protocol with
          | some .udp => { g with udp := els ++ g.udp }
          | some .sctp => { g with sctp := els ++ g.sctp }
          | _ => { g with tcp := els ++ g.tcp })

namespace Render

/-- `getInetSet`. -/
def getInetSet (chain : Chain) (portsName suffix : Str) : NftSet where
  table := chain.table
  name := nftNameWithSuffix (getSetName portsName) (str "_") suffix
  id := 0
  anonymous := false
  constant := true
  interval := true
  counter := true
  keyType := .inetService
  comment := nftNameWithSuffix (getSetName portsName) (str "_") suffix

/-- The destination port of a protocol is in a set. -/
def portIn (unixProto : UInt8) (set : NftSet) : List Expr :=
  protocolIs .l4proto unixProto ++
    [.payload 1 .transportHeader 2 2, .lookup 1 set.name set.id, .counter]

/-- The rule of `applyProtoPortsRules`. -/
def protoPortsRule (bo : ByteOrder) (chainName : Str) (chain : Chain) (policyName : Str)
    (set : NftSet) (unixProto : UInt8) : Rule :=
  newRule chain
    (str "policy:" ++ policyName ++ str ", name:" ++ chainName ++ str ", set:" ++ set.name)
    (portIn unixProto set ++ setMark bo portRuleMark)

/-- `applyProtoPortsRules`. -/
def applyProtoPortsRules (bo : ByteOrder) (chainName : Str) (chain : Chain) (policyName : Str)
    (set : NftSet) (unixProto : UInt8) : Render Unit := do
  let _ ← updateRule (protoPortsRule bo chainName chain policyName set unixProto) .addRule false

/-- The set and the rule of one protocol. -/
def applyProtoPorts (bo : ByteOrder) (chain : Chain) (portsName : Str) (portChain : Chain)
    (policyName : Str) (protocol : Protocol) (elements : List SetElement) : Render Unit :=
  when (elements.length > 0) do
    let (suffix, unixFlag) := getProtocolInfo protocol
    let set ← updateSet (getInetSet chain portsName suffix) elements
    wrapErr (str "failed to apply " ++ suffix ++ str " port rules for set " ++ quote set.name)
      (applyProtoPortsRules bo portsName portChain policyName set unixFlag)

/-- The jump from a policy chain to a ports or peers chain. -/
def policyJumpRule (chainName : Str) (chain : Chain) (policyName : Str) (target : Chain) : Rule :=
  newRule chain
    (str "policy:" ++ policyName ++ str ", name:" ++ chainName ++ str ", jump:" ++ target.name)
    [.counter, .verdict .jump target.name]

/-- The rule of a ports or peers chain that matches everything. -/
def acceptAllRule (bo : ByteOrder) (chainName : Str) (chain : Chain) (policyName what : Str)
    (mark : BitVec 32) : Rule :=
  newRule chain
    (str "policy:" ++ policyName ++ str ", name:" ++ chainName ++ str ", no " ++ what ++
      str " skipped accept all")
    (.counter :: setMark bo mark)

/-- The name of the ports chain of a rule. -/
def portsChainName (chainName : Str) (portIndex : Nat) : Str :=
  nftNameWithSuffix chainName (str "-") (portsChainSuffix ++ str "-" ++ decimal portIndex)

/-- `applyPolicyPortsRules`. -/
def applyPolicyPortsRules (bo : ByteOrder) (chainName : Str) (chain : Chain) (policyName : Str)
    (ports : List MultiNetworkPolicyPort) (portIndex : Nat) : Render Unit := do
  let portsName := portsChainName chainName portIndex
  let portChain ← wrapErr (str "failed to create ports chain")
    (addChain ⟨chain.table, portsName, none⟩)
  let _ ← updateRule (policyJumpRule chainName chain policyName portChain) .addRule false
  let els ← ofExcept (collectPorts ports)
  applyProtoPorts bo chain portsName portChain policyName .tcp els.tcp
  applyProtoPorts bo chain portsName portChain policyName .udp els.udp
  applyProtoPorts bo chain portsName portChain policyName .sctp els.sctp
  when (ports.length = 0 ∨ (els.tcp.length = 0 ∧ els.udp.length = 0 ∧ els.sctp.length = 0)) do
    let _ ← updateRule (acceptAllRule bo portsName portChain policyName (str "ports") portRuleMark)
      .addRule false

end Render

end MultiNetPolicy
