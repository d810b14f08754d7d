import MultiNetPolicy.Server.Options
import MultiNetPolicy.Equiv.Ranges

/-!
# Prefixes from the command line

`--allow-src-prefix` and `--allow-dst-prefix` are checked at startup by `net.ParseCIDR` and read
again by `netip.ParsePrefix` whenever the common chains of a pod are rendered.

* `configured_prefixes`: a daemon that starts has lists of CIDRs.
* `getPrefixesAsSetInterval_isOk_iff`: rendering needs every item to be a prefix for the second.
* `validated_prefixes_render_iff`: after a successful validation that is the case exactly when no
  item of the two texts has a zero-padded length.
-/

namespace MultiNetPolicy

open ByteString

theorem prefixesFrom_isOk_iff : ∀ {texts : List Str} {index : Nat},
    (prefixesFrom index texts).isOk = true ↔
      ∀ text ∈ texts, (NetIP.parsePrefix text).isSome = true
  | [], index => by simp [prefixesFrom, Except.isOk, Except.toBool]
  | text :: texts, index => by
    have ih := @prefixesFrom_isOk_iff texts (index + 1)
    rw [List.forall_mem_cons, ← ih, prefixesFrom]
    cases NetIP.parsePrefix text with
    | none => simp [Except.isOk, Except.toBool]
    | some p =>
      cases prefixesFrom (index + 1) texts with
      | error e => simp [Except.isOk, Except.toBool]
      | ok els => simp [Except.isOk, Except.toBool]

/-- Rendering needs every item to be a prefix. -/
theorem getPrefixesAsSetInterval_isOk_iff {texts : List Str} :
    (getPrefixesAsSetInterval texts).isOk = true ↔
      ∀ text ∈ texts, (NetIP.parsePrefix text).isSome = true :=
  prefixesFrom_isOk_iff

/-- A list that cannot be read fails the rendering of the common chains before the first call to
the kernel, whatever the pod. -/
theorem applyCommonPrefixRules_eq_fail {prefixes : List Str}
    (h : (getPrefixesAsSetInterval prefixes).isOk = false) (chain : Chain) (name : Str) :
    ∃ e, Render.applyCommonPrefixRules chain prefixes name = Render.fail e := by
  unfold Render.applyCommonPrefixRules
  cases hsets : getPrefixesAsSetInterval prefixes with
  | error e => exact ⟨_, rfl⟩
  | ok els =>
    rw [hsets] at h
    cases h

/-- What passes the loop of `parseIPPrefixText` is the list itself, every item of it a CIDR. -/
theorem checkPrefixes_eq_ok : ∀ {items list : List Str}, checkPrefixes items = .ok list →
    list = items ∧ ∀ item ∈ items, (NetIP.parseCIDR item).isSome = true
  | [], list, h => by
    cases h
    exact ⟨rfl, nofun⟩
  | addr :: rest, list, h => by
    rw [checkPrefixes] at h
    cases hcidr : NetIP.parseCIDR addr with
    | none =>
      rw [hcidr] at h
      cases h
    | some p =>
      rw [hcidr] at h
      cases hrest : checkPrefixes rest with
      | error e =>
        rw [hrest] at h
        cases h
      | ok list' =>
        rw [hrest] at h
        obtain ⟨rfl, hall⟩ := checkPrefixes_eq_ok hrest
        cases h
        exact ⟨rfl, List.forall_mem_cons.2 ⟨by rw [hcidr]; rfl, hall⟩⟩

/-- Starting from the empty list, a text that passes gives prefixes unless a length in it is
zero-padded. -/
theorem parseIPPrefixText_render_iff {text : Str} {list : List Str}
    (h : parseIPPrefixText text [] = .ok list) :
    (getPrefixesAsSetInterval list).isOk = true ↔
      ∀ item ∈ prefixItems text, NetIP.zeroPadded item = false := by
  rw [getPrefixesAsSetInterval_isOk_iff]
  rw [parseIPPrefixText] at h
  split at h
  · obtain ⟨rfl, hall⟩ := checkPrefixes_eq_ok h
    exact forall₂_congr fun item hitem => NetIP.parsePrefix_isSome_iff (hall item hitem)
  · rename_i hempty
    cases h
    rw [not_not] at hempty
    rw [hempty]
    exact ⟨fun _ => by decide, fun _ => nofun⟩

/-- What the validation reads the two lists from. -/
theorem validate_eq_ok {o o' : Options} (h : o.validate = .ok o') :
    parseIPPrefixText o.allowSrcPrefixText o.allowSrcPrefix = .ok o'.allowSrcPrefix ∧
      parseIPPrefixText o.allowDstPrefixText o.allowDstPrefix = .ok o'.allowDstPrefix := by
  unfold Options.validate at h
  split at h
  · cases h
  split at h
  · cases h
  cases hsrc : parseIPPrefixText o.allowSrcPrefixText o.allowSrcPrefix with
  | error e =>
    rw [hsrc] at h
    cases h
  | ok src =>
    cases hdst : parseIPPrefixText o.allowDstPrefixText o.allowDstPrefix with
    | error e =>
      rw [hsrc, hdst] at h
      cases h
    | ok dst =>
      rw [hsrc, hdst] at h
      simp only [bind, Except.bind] at h
      split at h
      · cases h
      split at h
      · cases h
      split at h
      · cases h
      cases h
      exact ⟨rfl, rfl⟩

/-- What passes are CIDRs. -/
theorem forall_parseIPPrefixText {text : Str} {list : List Str}
    (h : parseIPPrefixText text [] = .ok list) :
    ∀ item ∈ list, (NetIP.parseCIDR item).isSome = true := by
  rw [parseIPPrefixText] at h
  split at h
  · obtain ⟨rfl, hall⟩ := checkPrefixes_eq_ok h
    exact hall
  · cases h
    exact List.forall_mem_nil _

/-- What the reconciler is configured with are options that passed the validation. -/
theorem buildReconcilerConfig_eq_ok {getHostname : Str → Except Error Str} {o : Options}
    {c : ReconcilerConfig} (h : o.buildReconcilerConfig getHostname = .ok c) :
    ∃ o', o.validate = .ok o' ∧ c.commonRuleConfig =
      ⟨o'.acceptICMPv6, o'.acceptICMP, o'.allowSrcPrefix, o'.allowDstPrefix⟩ := by
  unfold Options.buildReconcilerConfig at h
  cases hvalid : o.validate with
  | error e =>
    rw [hvalid] at h
    cases h
  | ok o' =>
    rw [hvalid] at h
    simp only [Except.mapError, bind, Except.bind, pure, Except.pure] at h
    split at h
    · cases h
    · cases h
      exact ⟨o', rfl, rfl⟩

/-- **A daemon that starts has lists of CIDRs**, whatever its flags say. -/
theorem configured_prefixes {getHostname : Str → Except Error Str} {o : Options}
    {c : ReconcilerConfig} (hsrc : o.allowSrcPrefix = newOptions.allowSrcPrefix)
    (hdst : o.allowDstPrefix = newOptions.allowDstPrefix)
    (h : o.buildReconcilerConfig getHostname = .ok c) :
    (∀ item ∈ c.commonRuleConfig.allowSrcPrefix, (NetIP.parseCIDR item).isSome = true) ∧
      ∀ item ∈ c.commonRuleConfig.allowDstPrefix, (NetIP.parseCIDR item).isSome = true := by
  obtain ⟨o', hvalid, hconfig⟩ := buildReconcilerConfig_eq_ok h
  obtain ⟨hsrcText, hdstText⟩ := validate_eq_ok hvalid
  rw [hsrc] at hsrcText
  rw [hdst] at hdstText
  rw [hconfig]
  exact ⟨forall_parseIPPrefixText hsrcText, forall_parseIPPrefixText hdstText⟩

/-- **Options that pass the validation can be rendered** exactly when no item of the two prefix
texts has a length with a zero in front of other digits.  The lists are empty before, as
`newOptions` leaves them. -/
theorem validated_prefixes_render_iff {o o' : Options}
    (hsrc : o.allowSrcPrefix = newOptions.allowSrcPrefix)
    (hdst : o.allowDstPrefix = newOptions.allowDstPrefix) (h : o.validate = .ok o') :
    ((getPrefixesAsSetInterval o'.allowSrcPrefix).isOk = true ↔
        ∀ item ∈ prefixItems o.allowSrcPrefixText, NetIP.zeroPadded item = false) ∧
      ((getPrefixesAsSetInterval o'.allowDstPrefix).isOk = true ↔
        ∀ item ∈ prefixItems o.allowDstPrefixText, NetIP.zeroPadded item = false) := by
  obtain ⟨hsrcText, hdstText⟩ := validate_eq_ok h
  rw [hsrc] at hsrcText
  rw [hdst] at hdstText
  exact ⟨parseIPPrefixText_render_iff hsrcText, parseIPPrefixText_render_iff hdstText⟩

/-- Options with an endpoint and a text for `--allow-src-prefix`. -/
def allowingSources (text : Str) : Options :=
  { newOptions with
    containerRuntimeEndpoint := str "/run/cri.sock"
    allowSrcPrefixText := text }

/-- What `validate` makes of them. -/
def allowedSources (text : Str) (list : List Str) : Options :=
  { allowingSources text with allowSrcPrefix := list }

theorem plain_lengths_render :
    (getPrefixesAsSetInterval [str "10.0.0.0/8", str "fe80::/10"]).isOk = true :=
  (@validated_prefixes_render_iff (allowingSources (str "10.0.0.0/8, fe80::/10"))
    (allowedSources (str "10.0.0.0/8, fe80::/10") [str "10.0.0.0/8", str "fe80::/10"])
    rfl rfl (by decide +kernel)).1.2 (by decide +kernel)

/-- `10.0.0.0/08` passes the validation and fails every rendering of the common chains. -/
theorem zero_padded_length_passes :
    (allowingSources (str "10.0.0.0/08")).validate =
        .ok (allowedSources (str "10.0.0.0/08") [str "10.0.0.0/08"]) ∧
      (getPrefixesAsSetInterval [str "10.0.0.0/08"]).isOk = false ∧
      ∀ chain name, ∃ e,
        Render.applyCommonPrefixRules chain [str "10.0.0.0/08"] name = Render.fail e := by
  have hrefused : (getPrefixesAsSetInterval [str "10.0.0.0/08"]).isOk = false := by decide +kernel
  exact ⟨by decide +kernel, hrefused, applyCommonPrefixRules_eq_fail hrefused⟩

end MultiNetPolicy
