import MultiNetPolicy.Lib.CIDR
import MultiNetPolicy.Server.Policy

/-!
# Command line options

`Options` holds what the flags of the daemon set, `validate` checks them and fills in the prefix
lists, and `buildReconcilerConfig` packages them for the reconciler.
-/

namespace MultiNetPolicy

open ByteString

/-- `Options`, without the container runtime kind, which nothing reads. -/
structure Options where
  kubeconfig : Str
  master : Str
  hostnameOverride : Str
  hostPrefix : Str
  containerRuntimeEndpoint : Str
  networkPlugins : List Str
  syncPeriod : Int
  acceptICMPv6 : Bool
  acceptICMP : Bool
  allowSrcPrefixText : Str
  allowDstPrefixText : Str
  healthPort : Int
  healthBindAddress : Str
  /-- Filled in by `validate`; no flag writes it. -/
  allowSrcPrefix : List Str
  /-- Filled in by `validate`; no flag writes it. -/
  allowDstPrefix : List Str
  deriving DecidableEq, Repr

/-- `defaultSyncPeriod`. -/
def defaultSyncPeriod : Int := 30

/-- `NewOptions` with the defaults of `AddFlags`. -/
def newOptions : Options where
  kubeconfig := []
  master := []
  hostnameOverride := []
  hostPrefix := []
  containerRuntimeEndpoint := []
  networkPlugins := [str "macvlan"]
  syncPeriod := defaultSyncPeriod
  acceptICMPv6 := false
  acceptICMP := false
  allowSrcPrefixText := []
  allowDstPrefixText := []
  healthPort := 0
  healthBindAddress := []
  allowSrcPrefix := []
  allowDstPrefix := []

/-- The items of a comma separated list, as `parseIPPrefixText` reads them. -/
def prefixItems (prefixText : Str) : List Str := (split 0x2c prefixText).map trimSpace

/-- The loop of `parseIPPrefixText`. -/
def checkPrefixes : List Str → Except Error (List Str)
  | [] => .ok []
  | addr :: rest =>
    match NetIP.parseCIDR addr with
    | none => .error .library
    | some _ => (checkPrefixes rest).map fun list => addr :: list

/-- `parseIPPrefixText`; an empty text leaves the list alone. -/
def parseIPPrefixText (prefixText : Str) (prefixList : List Str) : Except Error (List Str) :=
  if prefixText ≠ [] then checkPrefixes (prefixItems prefixText) else .ok prefixList

/-- `filepath.IsAbs`. -/
def isAbs (path : Str) : Bool := hasPrefix path (str "/")

/-- `Options.Validate`.  The options are returned with the prefix lists filled in and the endpoint
trimmed; after an error they are not used any more. -/
def Options.validate (o : Options) : Except Error Options := do
  if o.healthPort < 0 ∨ 65535 < o.healthPort then
    .error (.text (str "health-port " ++ decimalInt o.healthPort ++
      str " is out of range [0, 65535]"))
  else if o.healthBindAddress ≠ [] ∧ NetIP.parseIP o.healthBindAddress = none then
    .error (.text (str "health-bind-address " ++ quote o.healthBindAddress ++
      str " is not a valid IP address"))
  else
    let allowSrcPrefix ← parseIPPrefixText o.allowSrcPrefixText o.allowSrcPrefix
    let allowDstPrefix ← parseIPPrefixText o.allowDstPrefixText o.allowDstPrefix
    let endpoint := trimSpace o.containerRuntimeEndpoint
    if endpoint = [] then
      .error (.text (str "container-runtime-endpoint must not be empty"))
    else if containsText endpoint (str "://") then
      .error (.text
        (str "container-runtime-endpoint must be an absolute filesystem path, not a URL"))
    else if !isAbs endpoint then
      .error (.text (str "container-runtime-endpoint must be an absolute filesystem path"))
    else
      .ok { o with
        containerRuntimeEndpoint := endpoint
        allowSrcPrefix := allowSrcPrefix
        allowDstPrefix := allowDstPrefix }

/-- `ReconcilerConfig`. -/
structure ReconcilerConfig where
  kubeconfig : Str
  master : Str
  nodeName : Str
  hostPrefix : Str
  containerRuntimeEndpoint : Str
  networkPlugins : List Str
  syncPeriodSeconds : Int
  commonRuleConfig : CommonRuleConfig
  deriving DecidableEq, Repr

/-- `Options.BuildReconcilerConfig`, for a node whose host name is found by `getHostname`. -/
def Options.buildReconcilerConfig (getHostname : Str → Except Error Str) (o : Options) :
    Except Error ReconcilerConfig := do
  let o ← o.validate.mapError (.wrap (str "options validation"))
  let hostname ← (getHostname o.hostnameOverride).mapError (.wrap (str "get hostname"))
  return {
    kubeconfig := o.kubeconfig
    master := o.master
    nodeName := hostname
    hostPrefix := o.hostPrefix
    containerRuntimeEndpoint := o.containerRuntimeEndpoint
    networkPlugins := o.networkPlugins
    syncPeriodSeconds := o.syncPeriod
    commonRuleConfig := ⟨o.acceptICMPv6, o.acceptICMP, o.allowSrcPrefix, o.allowDstPrefix⟩ }

end MultiNetPolicy
