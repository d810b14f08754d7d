import MultiNetPolicy.Server.Policy

/-!
# Incremental updates and cleanup

The part of `nftState` that talks to the kernel: `updateRule`, `updateSet` and `addChain` compare
an object with the committed ruleset, queue what is missing and remember the object's key, and
`cleanup` deletes what no key was remembered for.
-/

namespace MultiNetPolicy

open ByteString

variable (h : Host)

/-! ### Rule keys -/

/-- `hash` of an expression. -/
def hashExpr (e : Expr) : Str := fnvHex (h.gobExpr e)

/-- `newRuleData`. -/
def newRuleData (r : Rule) : RuleData where
  table := r.table
  chain := r.chain
  userData := r.userData
  exprs := (r.exprs.filter Expr.isHashed).map (hashExpr h)

/-- `hash` of a rule. -/
def hashRule (r : Rule) : Str := fnvHex (h.gobRuleData (newRuleData h r))

/-! ### Comparing rules -/

/-- One step of the loop of `ruleEqual`: counters are equal whatever they count, the hashed types
are compared field by field, any other expression differs. -/
def exprEqual (a b : Expr) : Bool :=
  match a with
  | .foreign _ false => false
  | _ => a == b

/-- `ruleEqual`. -/
def ruleEqual (a b : Rule) : Bool :=
  a.chain == b.chain && a.table == b.table && a.exprs.length == b.exprs.length &&
    a.userData == b.userData && (a.exprs.zip b.exprs).all fun (x, y) => exprEqual x y

/-- `findRule`. -/
def findRule (rule : Rule) : M (Option Rule) := do
  let rules ← wrapErr
    (str "failed to list rules in table " ++ quote rule.table ++ str ", chain " ++ quote rule.chain)
    (Conn.getRules h rule.table rule.chain)
  return rules.find? (ruleEqual rule)

/-- `Conn.AddRule` or `Conn.InsertRule`, the action `updateRule` is given. -/
inductive RuleAction where
  | addRule
  | insertRule
  deriving DecidableEq, Repr

def RuleAction.run : RuleAction → Rule → M Unit
  | addRule, r => Conn.addRule r
  | insertRule, r => Conn.insertRule r

def trackRule (key : Str) : M Unit := modify fun s => { s with rules := s.rules ++ [key] }

def trackSet (key : Str) : M Unit := modify fun s => { s with sets := s.sets ++ [key] }

def trackChain (key : Str) : M Unit := modify fun s => { s with chains := s.chains ++ [key] }

/-- A computation that may panic, inside a run. -/
def orPanic {α : Type} : Except Panic α → M α
  | .ok a => return a
  | .error _ => throw .panicked

/-- `updateRule`; the result says whether the rule is new.  A rule that is found stays where it is
unless the update is forced.  The comment that it logs is one `userDataComment` has just written,
which can be read back. -/
def updateRule (rule : Rule) (action : RuleAction) (forceUpdate : Bool) : M Bool := do
  modify fun s => { s with requested := s.requested ++ [rule] }
  let existingRule ← wrapErr (str "failed to get rule by comment") (findRule h rule)
  match existingRule with
  | some existing =>
    if forceUpdate then
      Conn.delRule existing
      action.run rule
      trackRule (hashRule h rule)
      return false
    else
      trackRule (hashRule h existing)
      return false
  | none =>
    action.run rule
    trackRule (hashRule h rule)
    return true

/-! ### Sets -/

/-- `isPresent`. -/
def isPresent (toCheck : SetElement) (elements : List SetElement) : Bool :=
  elements.any fun e => toCheck.key == e.key

/-- `findNonCommon`. -/
def findNonCommon (a b : List SetElement) : List SetElement := a.filter fun x => !isPresent x b

/-- `processElements`: what to add and what to delete. -/
def processElements (newEls existingEls : List SetElement) : List SetElement × List SetElement :=
  (findNonCommon newEls existingEls, findNonCommon existingEls newEls)

/-- The updates of a set that exists: deletions first, and no message for nothing to do. -/
def updateElements (existing : NftSet) (toAdd toDel : List SetElement) : M Unit := do
  if toDel.length > 0 then
    wrapErr (str "failed to remove elements from set " ++ quote existing.name)
      (Conn.setDeleteElements existing toDel)
  if toAdd.length > 0 then
    wrapErr (str "failed to add elements to set " ++ quote existing.name)
      (Conn.setAddElements existing toAdd)

/-- `updateSet`; the caller's set comes back with its short name and, when the set is new, with an
ID. -/
def updateSet (set₀ : NftSet) (elements : List SetElement) : M NftSet := do
  let set := { set₀ with name := shortName set₀.name }
  let existingSet ← wrapErr (str "failed to get set") (Conn.getSetByName h set.table set.name)
  match existingSet with
  | some existing =>
    let existingElements ← mapErr
      (fun _ => .text (str "failed to get elements for set " ++ quote existing.name ++
        str ", table " ++ quote existing.table)) (Conn.getSetElements h existing)
    let (toAdd, toDel) := processElements elements existingElements
    updateElements existing toAdd toDel
    trackSet (objectKey set.table set.name)
    return set
  | none =>
    let set ← Conn.addSet set elements
    trackSet (objectKey set.table set.name)
    return set

/-! ### Chains and tables -/

/-- `addChain`; of the chain that comes back only the table and the name are read. -/
def addChain (chain₀ : Chain) : M Chain := do
  let chain := { chain₀ with name := shortName chain₀.name }
  match ← Conn.listChain h chain.table chain.name with
  | some _ => pure ()
  | none => Conn.addChain chain
  trackChain (objectKey chain.table chain.name)
  return chain

/-- `addTable`. -/
def addTable (table : Str) : M Unit := do
  let found ← wrapErr (str "failed to check existence of table " ++ quote table)
    (Conn.listTableOfFamily h table)
  if found then return () else Conn.addTable table

/-! ### Cleanup -/

/-- One rule of the loop of `cleanupRules`. -/
def cleanupRule (performFlush : Bool) (rule : Rule) : M Bool := do
  let s ← get
  if s.rules.contains (hashRule h rule) then return performFlush
  else
    -- the comment is logged
    let _ ← orPanic (getComment rule.userData)
    Conn.delRule rule
    return true

/-- One chain of the loop of `cleanupRules`. -/
def cleanupChainRules (table : Str) (performFlush : Bool) (chain : Chain) : M Bool :=
  if chain.table = table then do
    let rules ← wrapErr
      (str "failed to list rules for table " ++ quote table ++ str ", chain " ++ quote chain.name)
      (Conn.getRules h table chain.name)
    rules.foldlM (cleanupRule h) performFlush
  else return performFlush

/-- One set of the second loop of `cleanupRules`. -/
def cleanupSet (performFlush : Bool) (set : NftSet) : M Bool := do
  let s ← get
  if !s.sets.contains (objectKey set.table set.name) && !set.anonymous then
    Conn.delSet set
    return true
  else return performFlush

/-- `cleanupRules`; deleting a listed rule cannot fail before the flush, so there are no collected
errors. -/
def cleanupRules (table : Str) : M Unit := do
  let chains ← wrapErr (str "failed to list chains") (Conn.listChainsOfTableFamily h)
  let rulesDeleted ← chains.foldlM (cleanupChainRules h table) false
  let sets ← wrapErr (str "failed to list sets for table " ++ quote table) (Conn.getSets h table)
  let performFlush ← sets.foldlM cleanupSet rulesDeleted
  if performFlush then wrapErr (str "failed to flush rules/sets cleanup") (Conn.flush h)

/-- One chain of the loop of `cleanupChains`. -/
def cleanupChain (performFlush : Bool) (chain : Chain) : M Bool :=
  if chain.table = filterTableName ∨ chain.table = natTableName then do
    let rules ← wrapErr
      (str "failed to get rules for table " ++ quote chain.table ++ str ", chain " ++
        quote chain.name) (Conn.getRules h chain.table chain.name)
    let s ← get
    if !s.chains.contains (objectKey chain.table chain.name) && rules.isEmpty then
      Conn.delChain chain
      return true
    else return performFlush
  else return performFlush

/-- `cleanupChains`. -/
def cleanupChains : M Unit := do
  let chains ← wrapErr (str "failed to list chains") (Conn.listChainsOfTableFamily h)
  let performFlush ← chains.foldlM (cleanupChain h) false
  if performFlush then wrapErr (str "failed to flush chains cleanup") (Conn.flush h)

/-- `cleanup`.  The tracking maps it resets are not read again. -/
def cleanup : M Unit := do
  wrapErr (str "failed to cleanup " ++ quote filterTableName ++ str " table")
    (cleanupRules h filterTableName)
  wrapErr (str "failed to cleanup " ++ quote natTableName ++ str " table")
    (cleanupRules h natTableName)
  wrapErr (str "failed to cleanup chains") (cleanupChains h)

end MultiNetPolicy
