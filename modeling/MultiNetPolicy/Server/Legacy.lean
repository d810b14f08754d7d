import MultiNetPolicy.Server.State

/-!
# Legacy tables

`CleanupLegacyTables`: older versions of the daemon kept their objects in the shared tables
`filter` and `nat`; what is recognised as theirs is deleted there, the tables stay.
-/

namespace MultiNetPolicy

open ByteString

variable (h : Host)

def legacyDaemonChainNames : List Str :=
  [ingressChain, egressChain, commonChainName ingressChain, commonChainName egressChain]

def legacyDaemonBaseChainNames : List Str := [str "input", str "output", str "prerouting"]

def legacyDaemonRuleComments : List Str :=
  [inputInterfaceFilterComment, outputInterfaceFilterComment, natFilterRuleComment]

def legacyDaemonSetComments : List Str := [str "Pod interfaces", str "Pod interfaces NAT"]

def legacyNames : List Str := [legacyFilterTableName, legacyNatTableName]

/-- `legacyDaemonRule`. -/
def legacyDaemonRule (rule : Rule) : Except Panic Bool :=
  (getComment rule.userData).map fun comment => comment.any legacyDaemonRuleComments.contains

/-- `legacyDaemonSet`. -/
def legacyDaemonSet (set : NftSet) : Bool :=
  set.name == podInterfacesName && legacyDaemonSetComments.contains set.comment

/-- `legacyDaemonChainRule`. -/
def legacyDaemonChainRule (rule : Rule) : Except Panic Bool :=
  (getComment rule.userData).map fun comment => comment.any fun comment =>
    legacyDaemonRuleComments.contains comment ||
      comment == str "common-ingress-chain" ||
      comment == str "common-egress-chain" ||
      comment == str "allow-ipv6-ndp-discovery" ||
      comment == allowConntrackRuleName ||
      comment == str "drop-remaining" ||
      hasPrefix comment (str "policy:") ||
      hasPrefix comment (str "common rule:") ||
      hasPrefix comment (str "allow_icmp_")

/-- `ruleReferencesChain`. -/
def ruleReferencesChain (rule : Rule) (chainName : Str) : Bool :=
  rule.exprs.any fun e => e == .verdict .jump chainName || e == .verdict .goto chainName

/-- Queue the deletion of the rules that satisfy `p`; says whether there was one. -/
def deleteRulesWhere (p : Rule → Except Panic Bool) (rules : List Rule) : M Bool :=
  rules.foldlM (fun deleted rule => do
    let own ← orPanic (p rule)
    if own then
      Conn.delRule rule
      return true
    else return deleted) false

/-- One base chain of `CleanupLegacyTables`. -/
def cleanupLegacyBaseChain (table : Str) (chain : Chain) : M Unit :=
  if chain.table = table ∧ legacyDaemonBaseChainNames.contains chain.name then do
    let rules ← wrapErr (str "cleanup legacy tables: list rules for chain " ++ quote chain.name ++
      str " in table " ++ quote table) (Conn.getRules h table chain.name)
    let deletedBaseRules ← deleteRulesWhere legacyDaemonRule rules
    if deletedBaseRules then
      wrapErr (str "cleanup legacy tables: flush daemon-owned rule deletes for chain " ++
        quote chain.name ++ str " in table " ++ quote table) (Conn.flush h)
  else return ()

/-- `cleanupLegacyDaemonChainRules`: does the chain still hold rules? -/
def cleanupLegacyDaemonChainRules (table : Str) (chain : Chain) : M Bool := do
  let rules ← wrapErr (str "cleanup legacy tables: list rules for daemon chain " ++
    quote chain.name ++ str " in table " ++ quote table) (Conn.getRules h table chain.name)
  let deleted ← deleteRulesWhere legacyDaemonChainRule rules
  if deleted then
    wrapErr (str "cleanup legacy tables: flush daemon-owned rule deletes for chain " ++
      quote chain.name ++ str " in table " ++ quote table) (Conn.flush h)
    let rules ← wrapErr (str "cleanup legacy tables: list remaining rules for daemon chain " ++
      quote chain.name ++ str " in table " ++ quote table) (Conn.getRules h table chain.name)
    return !rules.isEmpty
  else return !rules.isEmpty

/-- The loop of `legacyChainReferenced`. -/
def anyRuleReferences (table chainName : Str) : List Chain → M Bool
  | [] => return false
  | chain :: chains =>
    if chain.table = table then do
      let rules ← wrapErr (str "cleanup legacy tables: list rules for chain " ++
        quote chain.name ++ str " in table " ++ quote table) (Conn.getRules h table chain.name)
      if rules.any fun rule => ruleReferencesChain rule chainName then return true
      else anyRuleReferences table chainName chains
    else anyRuleReferences table chainName chains

/-- `legacyChainReferenced`. -/
def legacyChainReferenced (table chainName : Str) : M Bool := do
  let chains ← wrapErr (str "cleanup legacy tables: list chains for table " ++ quote table)
    (Conn.listChainsOfTableFamily h)
  anyRuleReferences h table chainName chains

/-- One daemon chain of `CleanupLegacyTables`. -/
def cleanupLegacyDaemonChain (table : Str) (flushed : Bool) (chain : Chain) : M Bool :=
  if chain.table = table ∧ legacyDaemonChainNames.contains chain.name then do
    let hasRemainingRules ← cleanupLegacyDaemonChainRules h table chain
    let referenced ← legacyChainReferenced h table chain.name
    if referenced then return flushed
    else if hasRemainingRules then return flushed
    else
      Conn.delChain chain
      return true
  else return flushed

/-- One set of `CleanupLegacyTables`. -/
def cleanupLegacySet (flushed : Bool) (set : NftSet) : M Bool :=
  if legacyDaemonSet set then do
    Conn.delSet set
    return true
  else return flushed

/-- One table of `CleanupLegacyTables`. -/
def cleanupLegacyTable (table : Str) : M Unit :=
  if legacyNames.contains table then do
    let chains ← wrapErr (str "cleanup legacy tables: list chains for table " ++ quote table)
      (Conn.listChainsOfTableFamily h)
    chains.forM (cleanupLegacyBaseChain h table)
    let chainsDeleted ← chains.foldlM (cleanupLegacyDaemonChain h table) false
    let sets ← wrapErr (str "cleanup legacy tables: list sets for table " ++ quote table)
      (Conn.getSets h table)
    let flushed ← sets.foldlM cleanupLegacySet chainsDeleted
    if flushed then wrapErr (str "cleanup legacy tables: flush") (Conn.flush h)
  else return ()

/-- `CleanupLegacyTables`. -/
def cleanupLegacyTables : M Unit := do
  let allTables ← wrapErr (str "cleanup legacy tables: list inet tables")
    (Conn.listTablesOfFamily h)
  allTables.forM (cleanupLegacyTable h)

end MultiNetPolicy
