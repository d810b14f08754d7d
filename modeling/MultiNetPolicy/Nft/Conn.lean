import MultiNetPolicy.Lib.StateExcept
import MultiNetPolicy.Nft.Kernel

/-!
# The netlink connection

`nftables.Conn` queues messages and sends them in one batch (`flush`); listings always show the
committed ruleset, never the queue.  `State` is the connection together with the run's tracking
maps (`nftState.rules`, `.sets`, `.chains`, of which only the keys are ever read).

`Host` gathers what is outside the source: the byte order of the machine, the gob encoding of
structs (it contains type ids that a process hands out in the order of first use), which listing
requests fail, and which batches the kernel refuses for reasons the model does not know.
-/

namespace MultiNetPolicy

open ByteString

/-- An error: a text of its own, a context around another error, an error of a library (whose text
is not modelled), a failed netlink request or a refused batch.  A run that panics does not return;
here it ends with `panicked`. -/
inductive Error where
  | text (msg : Str)
  | wrap (context : Str) (err : Error)
  | library
  | netlink
  | refused
  | panicked
  deriving DecidableEq, Repr

/-- A context around an error that is returned; a panic passes by. -/
def Error.within (context : Str) : Error → Error
  | panicked => panicked
  | err => wrap context err

/-- `%q` of a string without quotes, backslashes and control bytes. -/
def quote (s : Str) : Str := 0x22 :: s ++ [0x22]

/-- `encoder.ruleData`; the family of every table is `inet`. -/
structure RuleData where
  table : Str
  chain : Str
  userData : Str
  exprs : List Str
  deriving DecidableEq

/-- The machine and the kernel the daemon runs on. -/
structure Host where
  byteOrder : ByteOrder
  /-- The gob encoding of an expression. -/
  gobExpr : Expr → Str
  /-- The gob encoding of a `ruleData`. -/
  gobRuleData : RuleData → Str
  /-- The `n`-th listing request of a run fails. -/
  fault : Nat → Bool
  /-- The kernel has nothing else to object to in a batch. -/
  accepts : Kernel → List Op → Bool

/-- The connection and the tracking maps of `nftState`. -/
structure State where
  /-- The committed ruleset. -/
  kernel : Kernel
  /-- `Conn.messages`. -/
  messages : List Op
  /-- `Conn.lastID`. -/
  lastID : Nat
  /-- The number of listing requests so far. -/
  queries : Nat
  /-- The keys of `nftState.rules`. -/
  rules : List Str
  /-- The keys of `nftState.sets`. -/
  sets : List Str
  /-- The keys of `nftState.chains`. -/
  chains : List Str
  /-- The rules passed to `updateRule` so far; a history variable that nothing reads. -/
  requested : List Rule

/-- A run with a connection. -/
abbrev M := EStateM Error State

/-- A new connection to a ruleset. -/
def State.new (k : Kernel) : State :=
  { kernel := k, messages := [], lastID := 0, queries := 0, rules := [], sets := [], chains := []
    requested := [] }

/-- Rewrite the error of a failing run. -/
def mapErr {α : Type} (f : Error → Error) (x : M α) : M α := fun s =>
  match x s with
  | .ok a s' => .ok a s'
  | .error e s' => .error (f e) s'

/-- `fmt.Errorf("context: %w", err)`. -/
def wrapErr {α : Type} (context : Str) (x : M α) : M α := mapErr (.within context) x

namespace Conn

variable (h : Host)

/-! ### Listing requests -/

/-- Send a listing request; `false` when it fails. -/
def request : M Bool := do
  let s ← get
  set { s with queries := s.queries + 1 }
  return !h.fault s.queries

/-- A listing request whose failure is an error. -/
def query {α : Type} (f : Kernel → α) : M α := do
  let ok ← request h
  let s ← get
  if ok then return f s.kernel else throw .netlink

def listTableOfFamily (t : Str) : M Bool := query h fun k => k.hasTable t

def listTablesOfFamily : M (List Str) := query h fun k => k.tables

/-- `ListChain`, with `none` both for a chain that does not exist and for a failed request. -/
def listChain (t c : Str) : M (Option Chain) := do
  let ok ← request h
  let s ← get
  return if ok then s.kernel.findChain t c else none

def listChainsOfTableFamily : M (List Chain) := query h fun k => k.chains

def getRules (t c : Str) : M (List Rule) := query h fun k => k.getRules t c

def getSets (t : Str) : M (List NftSet) := query h fun k => k.sets.filter fun s => s.table == t

def getSetByName (t name : Str) : M (Option NftSet) := query h fun k => k.findSet t name

def getSetElements (s : NftSet) : M (List SetElement) :=
  query h fun k => k.getElements s.table s.name

/-! ### Queueing -/

def queue (ops : List Op) : M Unit := modify fun s => { s with messages := s.messages ++ ops }

/-- `allocateTransactionID`: 32 bits, never 0. -/
def allocateTransactionID : M Nat := do
  let s ← get
  let next := (s.lastID + 1) % 2 ^ 32
  let id := if next = 0 then 1 else next
  set { s with lastID := id }
  return id

def addTable (t : Str) : M Unit := queue [.addTable t]

def addChain (c : Chain) : M Unit := queue [.addChain c]

def delChain (c : Chain) : M Unit := queue [.delChain c.table c.name]

/-- `AddRule` of a rule without a handle. -/
def addRule (r : Rule) : M Unit := do
  let _ ← allocateTransactionID
  queue [.addRule r]

/-- `InsertRule` of a rule without a handle. -/
def insertRule (r : Rule) : M Unit := do
  let _ ← allocateTransactionID
  queue [.insertRule r]

/-- `DelRule` of a listed rule, which always has a handle. -/
def delRule (r : Rule) : M Unit := queue [.delRule r.table r.chain r.handle]

/-- `appendElemList`: no message for no elements. -/
def elementOps (op : List SetElement → Op) (els : List SetElement) : List Op :=
  if els = [] then [] else [op els]

/-- `AddSet` of a set that is not anonymous; the set gets a transaction-local ID. -/
def addSet (s : NftSet) (els : List SetElement) : M NftSet := do
  let id ← if s.id = 0 then allocateTransactionID else pure s.id
  queue (.addSet { s with id := id } :: elementOps (.addElements s.table s.name) els)
  return { s with id := id }

def setAddElements (s : NftSet) (els : List SetElement) : M Unit :=
  if s.anonymous then throw (.text (str "anonymous sets cannot be updated"))
  else queue (elementOps (.addElements s.table s.name) els)

def setDeleteElements (s : NftSet) (els : List SetElement) : M Unit :=
  if s.anonymous then throw (.text (str "anonymous sets cannot be updated"))
  else queue (elementOps (.deleteElements s.table s.name) els)

def delSet (s : NftSet) : M Unit := queue [.delSet s.table s.name]

/-- `Flush`: the queue is sent as one batch and emptied; a refused batch changes nothing. -/
def flush : M Unit := do
  let s ← get
  if s.messages = [] then return ()
  else if s.kernel.admits s.messages && h.accepts s.kernel s.messages then
    set { s with kernel := s.kernel.commit s.messages, messages := [] }
  else do
    set { s with messages := [] }
    throw .refused

end Conn

/-! ### A machine to compute with -/

def MetaKey.code : MetaKey → Str
  | iifname => [1]
  | oifname => [2]
  | nfproto => [3]
  | l4proto => [4]
  | mark => [5]
  | other c => 6 :: decimal c

def VerdictKind.code : VerdictKind → Str
  | ret => [1]
  | goto => [2]
  | jump => [3]
  | drop => [4]
  | accept => [5]
  | other c => 6 :: decimal c

/-- A readable encoding of the expressions the daemon writes. -/
def Expr.code : Expr → Str
  | metaExpr key source reg => 1 :: key.code ++ [if source then 1 else 0] ++ decimal reg
  | lookup reg name id => 2 :: decimal reg ++ 0 :: name ++ 0 :: decimal id
  | verdict kind chain => 3 :: kind.code ++ chain
  | cmp op reg data => 4 :: (if op = .eq then 0 else 1) :: decimal reg ++ 0 :: data
  | payload reg base offset len =>
    5 :: (if base = .networkHeader then 0 else 1) :: decimal reg ++ 0 :: decimal offset ++
      0 :: decimal len
  | ct reg _ _ => 6 :: decimal reg
  | bitwise src dst len mask xor =>
    7 :: decimal src ++ 0 :: decimal dst ++ 0 :: decimal len ++ 0 :: mask ++ xor
  | counter => [8]
  | foreign c _ => 9 :: decimal c

/-- A host that answers every request and accepts every batch; its encodings stand in for gob where
a run is computed. -/
def Host.reliable : Host where
  byteOrder := .little
  gobExpr := Expr.code
  gobRuleData d := d.table ++ 0 :: d.chain ++ 0 :: d.userData ++ d.exprs.flatten
  fault _ := false
  accepts _ _ := true

end MultiNetPolicy
