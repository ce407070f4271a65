import Reqx.Library.ByteSearch
import Reqx.Core.Redaction

/-!
# The slices of the redaction

The functions of `Core/Redaction` with the byte offsets the source computes and the
slices it takes at them. Each returns what the function without offsets does, so no
slice is out of range or inside a character.
-/

namespace Reqx

open Text

/-! ## The code -/

def stripQueryAndFragment? (uriText : Text) : Option Text :=
  let queryIndex := findWhere (· = '?') uriText
  let fragmentIndex := findWhere (· = '#') uriText
  let cutoff :=
    match queryIndex, fragmentIndex with
    | some query, some fragment => min query fragment
    | some query, none => query
    | none, some fragment => fragment
    | none, none => len uriText
  sliceTo? uriText cutoff

def redactWithPrefix? (start rest : Text) : Option (Option Text) := do
  let authorityEnd := (findWhere (· = '/') rest).getD (len rest)
  let (authority, suffix) ← splitAt? rest authorityEnd
  match rfind '@' authority with
  | none => some none
  | some atIndex => do
    let hostPort ← sliceFrom? authority (atIndex + 1)
    if hostPort.isEmpty then some (some (start ++ redactedMark ++ suffix))
    else some (some (start ++ hostPort ++ suffix))

def redactUserinfoInAuthority? (uriText : Text) : Option Text :=
  match findByte "://".toList uriText with
  | some schemeSeparator => do
    let prefixEnd := schemeSeparator + 3
    let (start, rest) ← splitAt? uriText prefixEnd
    let redacted ← redactWithPrefix? start rest
    some (redacted.getD uriText)
  | none =>
    if startsWith "//".toList uriText then do
      let redacted ← redactWithPrefix? "//".toList (uriText.drop 2)
      some (redacted.getD uriText)
    else some uriText

def redactNonAuthorityCredentials? (uriText : Text) : Option Text :=
  match splitOnce ':' uriText with
  | none => some uriText
  | some (scheme, remainder) =>
    let lower := toAsciiLowercase scheme
    if lower ≠ "mailto".toList ∧ lower ≠ "sip".toList ∧ lower ≠ "sips".toList then some uriText
    else if startsWith "//".toList remainder then some uriText
    else
      match rfind '@' remainder with
      | none => some uriText
      | some atIndex => do
        let credentialLike ← sliceTo? remainder atIndex
        if credentialLike.isEmpty then some uriText
        else if !contains ':' credentialLike &&
            (splitOnceText "%3a".toList (toAsciiLowercase credentialLike)).isNone then
          some uriText
        else do
          let suffix ← sliceFrom? remainder (atIndex + 1)
          some (scheme ++ ":".toList ++ redactedMark ++ suffix)

def redactUriWithoutUrlNormalization? (uriText : Text) : Option Text := do
  let stripped ← stripQueryAndFragment? uriText
  let authorityRedacted ← redactUserinfoInAuthority? stripped
  redactNonAuthorityCredentials? authorityRedacted

def credentialSeparator? (segment : Text) : Option (ℕ × ℕ) :=
  let plain := (findWhere (· = ':') segment).map (·, 1)
  let encoded := (findByte "%3a".toList (toAsciiLowercase segment)).map (·, 3)
  match plain, encoded with
  | some plain, some encoded => some (if plain.1 ≤ encoded.1 then plain else encoded)
  | some separator, none | none, some separator => some separator
  | none, none => none

def splitCredentialLikeSegment? (segment : Text) : Option (Option (Text × Text)) :=
  match credentialSeparator? segment with
  | none => some none
  | some (separatorIndex, separatorLen) => do
    let left ← sliceTo? segment separatorIndex
    let right ← sliceFrom? segment (separatorIndex + separatorLen)
    if left.isEmpty || right.isEmpty then some none
    else if len left < 3 ∨ len right < 6 then some none
    else if !isTokenLike left || !isTokenLike right then some none
    else some (some (left, right))

/-- The loop over the segments of a path, and whether one of them was redacted. -/
def redactPathSegments? : List Text → Option (List Text × Bool)
  | [] => some ([], false)
  | segment :: segments => do
    let parts ← splitCredentialLikeSegment? segment
    let (others, redacted) ← redactPathSegments? segments
    match parts with
    | some (left, _) => some ((left ++ ":redacted".toList) :: others, true)
    | none => some (segment :: others, redacted)

def redactSensitivePathSegments? (deps : Dependencies) (parsed : Url) : Option Url :=
  match parsed.pathSegments with
  | none | some [] => some parsed
  | some segments => do
    let (segments, redacted) ← redactPathSegments? segments
    if !redacted then some parsed
    else
      let rebuilt := (segments.map ('/' :: ·)).flatten
      let trailing := parsed.path.getLast? = some '/' ∧ rebuilt.getLast? ≠ some '/'
      some (deps.setPath parsed
        (if rebuilt.isEmpty ∨ trailing then rebuilt ++ "/".toList else rebuilt))

def isValidHostPort? (hostPort : Text) : Option Bool :=
  match hostPort with
  | '[' :: stripped =>
    match findWhere (· = ']') stripped with
    | none => some false
    | some stop =>
      if stop = 0 then some false
      else do
        let suffix ← sliceFrom? stripped (stop + 1)
        match suffix with
        | [] => some true
        | ':' :: port => some (isPort port)
        | _ => some false
  | _ => some (isValidHostPort hostPort)

def hasValidRawHttpAuthoritySyntax? (uriText : Text) (allowNetworkPathReference : Bool) :
    Option Bool :=
  let prefixLen :=
    if startsWithIgnoreCase "http://".toList uriText then some 7
    else if startsWithIgnoreCase "https://".toList uriText then some 8
    else if allowNetworkPathReference && startsWith "//".toList uriText then some 2
    else none
  match prefixLen with
  | none => some false
  | some prefixLen => do
    let remainder ← sliceFrom? uriText prefixLen
    if remainder.isEmpty || startsWith "/".toList remainder then some false
    else
      let authorityEnd := (findWhere (fun c ↦ c = '/' ∨ c = '?' ∨ c = '#') remainder).getD
        (len remainder)
      let authority ← sliceTo? remainder authorityEnd
      if authority.isEmpty then some false
      else
        let hostPort := ((rsplitOnce '@' authority).map Prod.snd).getD authority
        if hostPort.isEmpty then some false else isValidHostPort? hostPort

def isValidAbsoluteHttpUriText? (deps : Dependencies) (uriText : Text) : Option Bool := do
  let valid ← hasValidRawHttpAuthoritySyntax? uriText false
  if !valid then some false
  else
    match deps.parseUrl uriText with
    | none => some false
    | some parsed => some (isHttpScheme parsed.scheme && parsed.hostStr.isSome)

def redactUriForLogs? (deps : Dependencies) (uriText : Text) : Option Text := do
  let looksLikeHttpAbsolute := startsWithIgnoreCase "http://".toList uriText ||
    startsWithIgnoreCase "https://".toList uriText
  let malformed ←
    if looksLikeHttpAbsolute then (isValidAbsoluteHttpUriText? deps uriText).map (!·)
    else some false
  if malformed then redactUriWithoutUrlNormalization? uriText
  else
    match deps.parseUrl uriText with
    | none => redactUriWithoutUrlNormalization? uriText
    | some parsed => do
      let parsed := deps.setUsername parsed []
      let parsed := deps.setPassword parsed none
      let parsed := deps.setQuery parsed none
      let parsed := deps.setFragment parsed none
      let parsed ← redactSensitivePathSegments? deps parsed
      let authorityRedacted ← redactUserinfoInAuthority? parsed.text
      redactNonAuthorityCredentials? authorityRedacted

/-! ## What they return -/

theorem stripQueryAndFragment?_eq (uriText : Text) :
    stripQueryAndFragment? uriText = some (stripQueryAndFragment uriText) := by
  have hquery := findWhere_getD (· = '?') uriText
  have hfragment := findWhere_getD (· = '#') uriText
  have hcut : len (stripQueryAndFragment uriText) =
      min ((findWhere (· = '?') uriText).getD (len uriText))
        ((findWhere (· = '#') uriText).getD (len uriText)) := by
    rw [hquery, hfragment, ← len_takeWhile_and]
    simp [stripQueryAndFragment]
  have hslice : sliceTo? uriText (len (stripQueryAndFragment uriText)) =
      some (stripQueryAndFragment uriText) := by
    rw [sliceTo?, stripQueryAndFragment, splitAt?_takeWhile]
    rfl
  have hqueryLe := hquery.trans_le (len_takeWhile_le _ uriText)
  have hfragmentLe := hfragment.trans_le (len_takeWhile_le _ uriText)
  rw [stripQueryAndFragment?, ← hslice, hcut]
  cases hq : findWhere (· = '?') uriText with
  | none =>
    cases hf : findWhere (· = '#') uriText with
    | none => simp
    | some fragment =>
      rw [hf, Option.getD_some] at hfragmentLe
      simp [hfragmentLe]
  | some query =>
    cases hf : findWhere (· = '#') uriText with
    | none =>
      rw [hq, Option.getD_some] at hqueryLe
      simp [hqueryLe]
    | some fragment => simp

theorem redactWithPrefix?_eq (start rest : Text) :
    redactWithPrefix? start rest = some (redactWithPrefix start rest) := by
  have hauthority : rest.takeWhile (fun c ↦ !decide (c = '/')) = rest.takeWhile (· ≠ '/') := by
    simp
  unfold redactWithPrefix? redactWithPrefix
  simp only [findWhere_getD, splitAt?_takeWhile, hauthority, rfind,
    Option.bind_eq_bind, Option.bind_some]
  cases hsplit : rsplitOnce '@' (rest.takeWhile (· ≠ '/')) with
  | none => rfl
  | some parts =>
    obtain ⟨userinfo, hostPort⟩ := parts
    have hslice : sliceFrom? (rest.takeWhile (· ≠ '/')) (len userinfo + 1) =
        some hostPort := by
      rw [(rsplitOnce_eq_some hsplit).1]
      exact sliceFrom?_after (by decide) userinfo hostPort
    simp only [Option.map_some, hslice, Option.bind_some]
    cases hostPort <;> rfl

theorem redactUserinfoInAuthority?_eq (uriText : Text) :
    redactUserinfoInAuthority? uriText = some (redactUserinfoInAuthority uriText) := by
  unfold redactUserinfoInAuthority? redactUserinfoInAuthority
  rw [findByte]
  cases hsplit : splitOnceText "://".toList uriText with
  | none =>
    simp only [Option.map_none, redactWithPrefix?_eq, Option.bind_eq_bind, Option.bind_some]
    split <;> rfl
  | some parts =>
    have hcut : splitAt? uriText (len parts.1 + 3) =
        some (parts.1 ++ "://".toList, parts.2) := by
      have hlen : len (parts.1 ++ "://".toList) = len parts.1 + 3 := by
        rw [len_append]
        rfl
      rw [splitOnceText_eq_some hsplit, ← hlen, splitAt?_append]
    simp only [Option.map_some, hcut, redactWithPrefix?_eq, Option.bind_eq_bind,
      Option.bind_some]

theorem redactNonAuthorityCredentials?_eq (uriText : Text) :
    redactNonAuthorityCredentials? uriText = some (redactNonAuthorityCredentials uriText) := by
  unfold redactNonAuthorityCredentials? redactNonAuthorityCredentials
  cases splitOnce ':' uriText with
  | none => rfl
  | some parts =>
    obtain ⟨scheme, remainder⟩ := parts
    simp only [rfind]
    split_ifs
    · rfl
    · rfl
    cases hsplit : rsplitOnce '@' remainder with
    | none => rfl
    | some parts =>
      obtain ⟨credentialLike, suffix⟩ := parts
      have hremainder := (rsplitOnce_eq_some hsplit).1
      have hfront : sliceTo? remainder (len credentialLike) =
          some credentialLike := by
        rw [hremainder, sliceTo?_append]
      have hbehind : sliceFrom? remainder (len credentialLike + 1) = some suffix := by
        rw [hremainder]
        exact sliceFrom?_after (by decide) credentialLike suffix
      simp only [Option.map_some, hfront, hbehind, Option.bind_eq_bind, Option.bind_some]
      split_ifs <;> rfl

theorem redactUriWithoutUrlNormalization?_eq (uriText : Text) :
    redactUriWithoutUrlNormalization? uriText =
      some (redactUriWithoutUrlNormalization uriText) := by
  simp only [redactUriWithoutUrlNormalization?, stripQueryAndFragment?_eq,
    redactUserinfoInAuthority?_eq, redactNonAuthorityCredentials?_eq, Option.bind_eq_bind,
    Option.bind_some]
  rfl

/-! ## Credentials in a path -/

theorem byteOffset_plain {segment left right : Text}
    (h : splitOnce ':' segment = some (left, right)) :
    byteOffset segment left.length = len left ∧
      byteOffset segment (left.length + 1) = len left + 1 ∧
      left.length ≤ segment.length := by
  obtain ⟨rfl, -⟩ := splitOnce_eq_some h
  refine ⟨byteOffset_append left _, ?_, by simp⟩
  rw [byteOffset_add, byteOffset_append, List.drop_left]
  rfl

theorem byteOffset_encoded {segment left right : Text}
    (h : splitOnceText "%3a".toList (toAsciiLowercase segment) = some (left, right)) :
    byteOffset segment left.length = len left ∧
      byteOffset segment (left.length + 3) = len left + 3 ∧
      left.length ≤ segment.length := by
  have hlower : toAsciiLowercase segment = left ++ ("%3a".toList ++ right) := by
    rw [splitOnceText_eq_some h, List.append_assoc]
  have hlength : segment.length = (left ++ ("%3a".toList ++ right)).length := by
    rw [← hlower, toAsciiLowercase, List.length_map]
  have hplace (i : ℕ) : byteOffset segment i =
      byteOffset (left ++ ("%3a".toList ++ right)) i := by
    rw [← hlower, byteOffset_toAsciiLowercase]
  rw [hplace, hplace, hlength]
  refine ⟨byteOffset_append left _, ?_, by simp⟩
  rw [byteOffset_add, byteOffset_append, List.drop_left]
  rfl

/-- The same separator is found, with its place in bytes. -/
theorem credentialSeparator?_eq (segment : Text) :
    credentialSeparator? segment = (credentialSeparator segment).map fun separator ↦
      (byteOffset segment separator.1, separator.2) := by
  unfold credentialSeparator? credentialSeparator
  rw [findWhere_eq_splitOnce, findByte]
  cases hplain : splitOnce ':' segment with
  | none =>
    cases hencoded : splitOnceText "%3a".toList (toAsciiLowercase segment) with
    | none => rfl
    | some parts => simp [(byteOffset_encoded hencoded).1]
  | some plain =>
    obtain ⟨hstart, -, hbound⟩ := byteOffset_plain hplain
    cases hencoded : splitOnceText "%3a".toList (toAsciiLowercase segment) with
    | none => simp [hstart]
    | some encoded =>
      obtain ⟨hstart', -, hbound'⟩ := byteOffset_encoded hencoded
      have horder : len plain.1 ≤ len encoded.1 ↔
          plain.1.length ≤ encoded.1.length := by
        rw [← hstart, ← hstart', ← Nat.not_lt, ← Nat.not_lt,
          byteOffset_lt_iff hbound' hbound]
      simp only [Option.map_some, horder]
      split
      · rw [hstart]
      · rw [hstart']

theorem byteOffset_credentialSeparator {segment : Text} {index len : ℕ}
    (h : credentialSeparator segment = some (index, len)) :
    byteOffset segment (index + len) = byteOffset segment index + len := by
  have hplaces : (∃ left right, splitOnce ':' segment = some (left, right) ∧
      left.length = index ∧ len = 1) ∨ ∃ left right,
        splitOnceText "%3a".toList (toAsciiLowercase segment) = some (left, right) ∧
          left.length = index ∧ len = 3 := by
    unfold credentialSeparator at h
    rcases hplain : splitOnce ':' segment with _ | plain <;>
      rcases hencoded : splitOnceText "%3a".toList (toAsciiLowercase segment) with _ | encoded <;>
      rw [hplain, hencoded] at h
    · cases h
    · cases h
      exact .inr ⟨_, _, rfl, rfl, rfl⟩
    · cases h
      exact .inl ⟨_, _, rfl, rfl, rfl⟩
    · simp only [Option.map_some, Option.some.injEq] at h
      split at h <;> cases h
      · exact .inl ⟨_, _, rfl, rfl, rfl⟩
      · exact .inr ⟨_, _, rfl, rfl, rfl⟩
  rcases hplaces with ⟨left, right, hplain, rfl, rfl⟩ | ⟨left, right, hencoded, rfl, rfl⟩
  · obtain ⟨hstart, hstop, -⟩ := byteOffset_plain hplain
    rw [hstop, hstart]
  · obtain ⟨hstart, hstop, -⟩ := byteOffset_encoded hencoded
    rw [hstop, hstart]

theorem len_of_isTokenLike {segment : Text} (h : isTokenLike segment = true) :
    len segment = segment.length := by
  rw [isTokenLike, Bool.and_eq_true, List.all_eq_true] at h
  refine len_of_ascii fun c hc ↦ ?_
  have htoken := h.2 c hc
  rw [isTokenChar, Bool.or_eq_true, isAlphanum_iff, decide_eq_true_eq] at htoken
  rcases htoken with hletter | hmem
  · omega
  · have hascii : ∀ c ∈ ['-', '_', '.', '~', '+', '='], c.toNat < 128 := by simp
    exact hascii c hmem

theorem splitCredentialLikeSegment?_eq (segment : Text) :
    splitCredentialLikeSegment? segment = some (splitCredentialLikeSegment segment) := by
  unfold splitCredentialLikeSegment? splitCredentialLikeSegment
  rw [credentialSeparator?_eq]
  cases hfound : credentialSeparator segment with
  | none => rfl
  | some separator =>
    obtain ⟨index, len⟩ := separator
    have hleft : sliceTo? segment (byteOffset segment index) =
        some (segment.take index) := by
      rw [sliceTo?, splitAt?_byteOffset]
      rfl
    have hright : sliceFrom? segment (byteOffset segment index + len) =
        some (segment.drop (index + len)) := by
      rw [← byteOffset_credentialSeparator hfound, sliceFrom?_byteOffset]
    simp only [Option.map_some, hleft, hright, Option.bind_eq_bind, Option.bind_some]
    -- Where byte lengths and lengths differ the segment is refused in the end.
    by_cases htokens : isTokenLike (segment.take index) = true ∧
        isTokenLike (segment.drop (index + len)) = true
    · rw [len_of_isTokenLike htokens.1, len_of_isTokenLike htokens.2]
      split_ifs <;> rfl
    · have hrefused : (!isTokenLike (segment.take index) ||
          !isTokenLike (segment.drop (index + len))) = true := by
        rw [Bool.or_eq_true, Bool.not_eq_true', Bool.not_eq_true', ← Bool.not_eq_true,
          ← Bool.not_eq_true]
        exact not_and_or.mp htokens
      simp only [hrefused, if_true, ite_self]

theorem redactPathSegments?_eq (segments : List Text) :
    redactPathSegments? segments = some (segments.map redactSegment,
      segments.any fun segment ↦ (splitCredentialLikeSegment segment).isSome) := by
  induction segments with
  | nil => rfl
  | cons segment segments ih =>
    rw [redactPathSegments?, splitCredentialLikeSegment?_eq, ih, List.map_cons, List.any_cons,
      redactSegment]
    cases splitCredentialLikeSegment segment <;> rfl

theorem redactSensitivePathSegments?_eq (deps : Dependencies) (parsed : Url) :
    redactSensitivePathSegments? deps parsed = some (redactSensitivePathSegments deps parsed) := by
  unfold redactSensitivePathSegments? redactSensitivePathSegments
  cases parsed.pathSegments with
  | none => rfl
  | some segments =>
    cases segments with
    | nil => rfl
    | cons segment segments =>
      have hall : ((segment :: segments).all fun s ↦ (splitCredentialLikeSegment s).isNone) =
          !(segment :: segments).any fun s ↦ (splitCredentialLikeSegment s).isSome := by
        rw [List.not_any_eq_all_not]
        simp
      simp only [redactPathSegments?_eq, hall, List.map_map, Option.bind_eq_bind,
        Option.bind_some]
      split <;> rfl

/-! ## The whole redaction -/

theorem isValidHostPort?_eq (hostPort : Text) :
    isValidHostPort? hostPort = some (isValidHostPort hostPort) := by
  unfold isValidHostPort?
  split
  next stripped =>
    rw [isValidHostPort, findWhere_eq_splitOnce]
    cases hsplit : splitOnce ']' stripped with
    | none => rfl
    | some parts =>
      obtain ⟨host, suffix⟩ := parts
      obtain ⟨rfl, -⟩ := splitOnce_eq_some hsplit
      cases host with
      | nil => rfl
      | cons c host =>
        have hne : ¬ len (c :: host) = 0 := fun h ↦
          List.cons_ne_nil c host (len_eq_zero_iff.mp h)
        simp only [Option.map_some, if_neg hne, Option.bind_eq_bind, Option.bind_some,
          sliceFrom?_after (show ']'.utf8Size = 1 by decide)]
        split
        · rfl
        · rfl
        next hempty hport => split <;> simp_all
  · rfl

theorem sliceFrom?_of_startsWithIgnoreCase {pre t : Text}
    (hascii : len (toAsciiLowercase pre) = pre.length)
    (h : startsWithIgnoreCase pre t = true) :
    sliceFrom? t pre.length = some (t.drop pre.length) := by
  obtain ⟨start, rest, rfl, heq⟩ := startsWithIgnoreCase_iff.mp h
  have hlower : toAsciiLowercase start = toAsciiLowercase pre := of_decide_eq_true heq
  have hlen : len start = pre.length := by
    rw [← len_toAsciiLowercase, hlower, hascii]
  have hlength : start.length = pre.length := by
    simpa [toAsciiLowercase] using congrArg List.length hlower
  rw [List.drop_left' hlength, ← hlen, sliceFrom?_append]

theorem hasValidRawHttpAuthoritySyntax?_eq (uriText : Text) :
    hasValidRawHttpAuthoritySyntax? uriText false =
      some (hasValidRawHttpAuthoritySyntax uriText false) := by
  have hauthority (remainder : Text) : sliceTo? remainder
      ((findWhere (fun c ↦ c = '/' ∨ c = '?' ∨ c = '#') remainder).getD
        (len remainder)) =
          some (remainder.takeWhile fun c ↦ c ≠ '/' ∧ c ≠ '?' ∧ c ≠ '#') := by
    rw [findWhere_getD, sliceTo?, splitAt?_takeWhile]
    simp
  unfold hasValidRawHttpAuthoritySyntax? hasValidRawHttpAuthoritySyntax
  dsimp only
  generalize hprefix : (if startsWithIgnoreCase "http://".toList uriText = true then some 7
    else if startsWithIgnoreCase "https://".toList uriText = true then some 8
    else if (false && startsWith "//".toList uriText) = true then some 2 else none) = found
  cases found with
  | none => rfl
  | some prefixLen =>
    have hslice : sliceFrom? uriText prefixLen = some (uriText.drop prefixLen) := by
      split_ifs at hprefix with hhttp hhttps hreference
      · cases hprefix
        exact @sliceFrom?_of_startsWithIgnoreCase "http://".toList uriText rfl hhttp
      · cases hprefix
        exact @sliceFrom?_of_startsWithIgnoreCase "https://".toList uriText rfl hhttps
      · simp at hreference
    simp only [hslice, hauthority, isValidHostPort?_eq, Option.bind_eq_bind, Option.bind_some]
    generalize uriText.drop prefixLen = remainder
    generalize (remainder.takeWhile fun c ↦ c ≠ '/' ∧ c ≠ '?' ∧ c ≠ '#') = authority
    cases remainder.isEmpty || startsWith "/".toList remainder with
    | true => rfl
    | false =>
      cases authority.isEmpty with
      | true => rfl
      | false =>
        generalize ((rsplitOnce '@' authority).map Prod.snd).getD authority = hostPort
        cases hostPort.isEmpty <;> rfl

theorem isValidAbsoluteHttpUriText?_eq (deps : Dependencies) (uriText : Text) :
    isValidAbsoluteHttpUriText? deps uriText = some (isValidAbsoluteHttpUriText deps uriText) := by
  unfold isValidAbsoluteHttpUriText? isValidAbsoluteHttpUriText
  rw [hasValidRawHttpAuthoritySyntax?_eq]
  cases hasValidRawHttpAuthoritySyntax uriText false with
  | false => rfl
  | true => cases deps.parseUrl uriText <;> rfl

theorem redactUriForLogs?_eq (deps : Dependencies) (uriText : Text) :
    redactUriForLogs? deps uriText = some (redactUriForLogs deps uriText) := by
  unfold redactUriForLogs? redactUriForLogs
  simp only [isValidAbsoluteHttpUriText?_eq, redactUriWithoutUrlNormalization?_eq,
    redactSensitivePathSegments?_eq, redactUserinfoInAuthority?_eq,
    redactNonAuthorityCredentials?_eq, Option.map_some, Option.bind_eq_bind, Option.bind_some]
  cases startsWithIgnoreCase "http://".toList uriText ||
      startsWithIgnoreCase "https://".toList uriText with
  | false => cases deps.parseUrl uriText <;> rfl
  | true =>
    cases isValidAbsoluteHttpUriText deps uriText with
    | false => rfl
    | true => cases deps.parseUrl uriText <;> rfl

end Reqx
