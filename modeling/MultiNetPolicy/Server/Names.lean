import MultiNetPolicy.Nft.Basic

/-!
# Names, keys and comments

How the daemon spells the objects it owns: the constants of `doc.go`, the names of chains and sets
(sanitised, cut to 255 bytes with a hash of the full name, and replaced by a hash altogether when
they are longer than 31 bytes), the comments that identify rules, and interface names as the kernel
compares them.
-/

namespace MultiNetPolicy

open ByteString

/-! ### Constants -/

def filterTableName : Str := str "multi-networkpolicy-filter"
def natTableName : Str := str "multi-networkpolicy-nat"
def legacyFilterTableName : Str := str "filter"
def legacyNatTableName : Str := str "nat"

def ingressChain : Str := str "multi-ingress"
def egressChain : Str := str "multi-egress"
def common : Str := str "common"

def portsChainSuffix : Str := str "ports"
def peersChainSuffix : Str := str "peers"
def peerIPBlockExceptPrefix : Str := str "peer_ipblock_except"
def peerIPBlockPrefix : Str := str "peer_ipblock"
def protoIPv4 : Str := str "ipv4"
def protoIPv6 : Str := str "ipv6"
def allowConntrackRuleName : Str := str "allow-conntracked"
def destinationAddressSuffix : Str := str "daddrs"
def sourceAddressSuffix : Str := str "saddrs"
def podInterfacesName : Str := str "pod_interfaces"
def policyNetworkAnnotation : Str := str "k8s.v1.cni.cncf.io/policy-for"
def inputInterfaceFilterComment : Str := str "input-interface-filter"
def outputInterfaceFilterComment : Str := str "output-interface-filter"
def natFilterRuleComment : Str := str "nat-filter-rule"

def peerRuleMark : BitVec 32 := 0x20000
def portRuleMark : BitVec 32 := 0x10000
def matchRuleMark : BitVec 32 := 0x30000
def zeroRuleMark : BitVec 32 := 0

def ipv4OffSet : Nat := 12
def ipv6OffSet : Nat := 8
def ipv4len : Nat := 4
def ipv6len : Nat := 16

/-- `nftNameMaxLen`. -/
def nftNameMaxLen : Nat := 255

/-- `userDataCommentMaxLen`. -/
def userDataCommentMaxLen : Nat := 254

/-! ### Hashes -/

/-- The bytes of a number, most significant first and without leading zeros. -/
def minimalBytes (n : Nat) : Str := (NetIP.beBytes 8 n).dropWhile (· == 0)

/-- The gob encoding of an unsigned integer: one byte below 128, else the negated number of bytes
and the bytes. -/
def gobUint (n : Nat) : Str :=
  if n < 128 then [UInt8.ofNat n]
  else UInt8.ofNat (256 - (minimalBytes n).length) :: minimalBytes n

/-- The gob stream of one string: the length of the message, the type id of strings, a zero for a
value that is not a struct, and the string with its length. -/
def gobString (s : Str) : Str :=
  let payload := [0x0c, 0x00] ++ gobUint s.length ++ s
  gobUint payload.length ++ payload

/-- `%x` of the FNV sum, the last step of `hash`. -/
def fnvHex (bs : Str) : Str := hex (fnv32a bs)

/-- `hash` of a string. -/
def hashString (s : Str) : Str := fnvHex (gobString s)

/-! ### Names -/

/-- `sanitizeNftChar`. -/
def sanitizeNftChar (r : Nat) : UInt8 :=
  if (0x61 ≤ r && r ≤ 0x7a) || (0x41 ≤ r && r ≤ 0x5a) || (0x30 ≤ r && r ≤ 0x39) || r == 0x5f ||
      r == 0x2d || r == 0x2e then UInt8.ofNat r
  else 0x5f

/-- `truncateNftName`; `maxLen` is a Go `int`. -/
def truncateNftName (name : Str) (maxLen : Int) : Str :=
  if maxLen ≤ 0 then []
  else
    let sanitized := mapRunes sanitizeNftChar name
    if sanitized.length ≤ maxLen then sanitized
    else
      let suffix := 0x2d :: hexPad 8 (fnv32a name)
      if maxLen ≤ suffix.length then
        let hash := suffix.drop 1
        if maxLen < hash.length then hash.take maxLen.toNat else hash
      else sanitized.take (maxLen - suffix.length).toNat ++ suffix

/-- `nftNameWithSuffix`. -/
def nftNameWithSuffix (base separator suffix : Str) : Str :=
  let sanitizedSeparator := mapRunes sanitizeNftChar separator
  let sanitizedSuffix := mapRunes sanitizeNftChar suffix
  let suffixLen := sanitizedSeparator.length + sanitizedSuffix.length
  if suffixLen = 0 then truncateNftName base nftNameMaxLen
  else if suffixLen ≥ nftNameMaxLen then
    truncateNftName (base ++ sanitizedSeparator ++ sanitizedSuffix) nftNameMaxLen
  else truncateNftName base (nftNameMaxLen - suffixLen) ++ sanitizedSeparator ++ sanitizedSuffix

/-- What `addChain` and `updateSet` do to a name first: more than 31 bytes become a hash. -/
def shortName (name : Str) : Str := if name.length > 31 then hashString name else name

/-- The key of a set in `nftState.sets` and of a chain in `nftState.chains` (`chainID`). -/
def objectKey (table name : Str) : Str := table ++ str "-" ++ name

/-- `getSetName`. -/
def getSetName (s : Str) : Str := replaceAll 0x2d 0x5f s

/-- The name of a common chain, `fmt.Sprintf("%s-%s", entry, common)`. -/
def commonChainName (entry : Str) : Str := entry ++ str "-" ++ common

/-- `isIngressChain`. -/
def isIngressChain (chainName : Str) : Bool := hasPrefix chainName ingressChain

/-- `getMetaKeyInterface`. -/
def getMetaKeyInterface (chainName : Str) : MetaKey :=
  if isIngressChain chainName then .iifname else .oifname

/-- `getAddressSuffix`. -/
def getAddressSuffix (chainName : Str) : Str :=
  if isIngressChain chainName then sourceAddressSuffix else destinationAddressSuffix

/-! ### Comments and interface names -/

/-- `userdata.AppendString` with `userdata.TypeComment`: type, length and text with a final zero. -/
def appendComment (comment : Str) : Str :=
  0x00 :: UInt8.ofNat (comment.length + 1) :: comment ++ [0x00]

/-- `userDataComment`. -/
def userDataComment (comment : Str) : Str := appendComment (comment.take userDataCommentMaxLen)

/-- What Go panics for: a slice expression with bounds outside of the slice. -/
inductive Panic where
  | sliceBounds
  deriving DecidableEq, Repr

/-- `userdata.Get`: the payload of the first attribute of a type.  Every attribute on the way is
sliced before its type is looked at, and a listed slice has no spare capacity: an attribute that is
cut off panics. -/
def userdataGet : Nat → Str → UInt8 → Except Panic (Option Str)
  | 0, _, _ => .ok none
  | fuel + 1, t :: len :: rest, type =>
    if rest.length < len.toNat then .error .sliceBounds
    else if t = type then .ok (some (rest.take len.toNat))
    else userdataGet fuel (rest.drop len.toNat) type
  | _ + 1, _, _ => .ok none

/-- `userdata.GetString(udata, userdata.TypeComment)`: the text without its final zero byte. -/
def getComment (userData : Str) : Except Panic (Option Str) :=
  (userdataGet userData.length userData 0x00).map fun payload =>
    payload.map fun text => if text.getLast? = some 0 then text.dropLast else text

/-- `ifname`: sixteen bytes, cut or filled with zeros. -/
def ifname (n : Str) : Str := (n ++ List.replicate 16 0).take 16

end MultiNetPolicy
