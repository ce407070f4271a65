import Reqx.Core.UserInformation
import Reqx.Driver.Destinations

/-!
# Texts of requests and redirects that are refused

Which texts with user information are refused, and what their errors show. The
redaction looks for its authority behind the first mark it finds, so the user
information of a malformed text is left in the error.
-/

namespace Reqx

open Text

/-! ## User information -/

/-- What may stand before the `@` of an authority. Letters and digits are not colons. -/
structure UserInfo (user : Text) : Prop where
  head : ∃ c ∈ user.head?, c ≠ ':'
  clean : ∀ c ∈ user, c ≠ '/' ∧ c ≠ '?' ∧ c ≠ '#' ∧ c ≠ '@' ∧ c ≠ '\\' ∧
    isWhitespace c = false

/-- What may stand behind it: the text begins with a host and has no other `@`. -/
structure HostText (rest : Text) : Prop where
  head : ∃ c ∈ rest.head?, endsAuthority c = false
  clean : '@' ∉ rest

variable {user rest : Text}

theorem UserInfo.notMem (h : UserInfo user) :
    '/' ∉ user ∧ '?' ∉ user ∧ '#' ∉ user ∧ '@' ∉ user := by
  refine ⟨?_, ?_, ?_, ?_⟩ <;>
  · intro hmem
    have hclean := h.clean _ hmem
    simp at hclean

theorem HostText.strip (h : HostText rest) :
    '@' ∉ stripQueryAndFragment rest ∧ authorityPart (stripQueryAndFragment rest) ≠ [] := by
  obtain ⟨c, hc, hinside⟩ := h.head
  cases rest with
  | nil => cases hc
  | cons d rest =>
    cases hc
    refine ⟨fun hmem ↦ h.clean ((List.takeWhile_sublist _).subset hmem), ?_⟩
    rw [endsAuthority, decide_eq_false_iff_not] at hinside
    push Not at hinside
    simp [stripQueryAndFragment, authorityPart, hinside]

theorem hideUserinfo_userinfo (huser : UserInfo user) (hrest : HostText rest) :
    hideUserinfo (user ++ '@' :: stripQueryAndFragment rest) = stripQueryAndFragment rest := by
  obtain ⟨hclean, hhost⟩ := hrest.strip
  set shown := stripQueryAndFragment rest
  have hcut : user ++ '@' :: shown = (user ++ '@' :: authorityPart shown) ++ pathPart shown := by
    rw [List.append_assoc, List.cons_append, authorityPart_append_pathPart]
  have hslash : '/' ∉ user ++ '@' :: authorityPart shown := by
    simp only [List.mem_append, List.mem_cons, not_or]
    exact ⟨huser.notMem.1, by decide, slash_not_mem_authorityPart shown⟩
  obtain ⟨hauthority, hpath⟩ := cut_append hslash (pathPart_head shown)
  rw [← hcut] at hauthority hpath
  have hmark : '@' ∉ authorityPart shown := fun hmem ↦
    hclean ((List.takeWhile_sublist _).subset hmem)
  rw [hideUserinfo_of_userinfo hauthority hmark, hpath, shownHost,
    if_neg (by rwa [List.isEmpty_iff]), authorityPart_append_pathPart]

theorem stripQueryAndFragment_userinfo (huser : UserInfo user) {start : Text} (hquery : '?' ∉ start)
    (hfragment : '#' ∉ start) (rest : Text) :
    stripQueryAndFragment (start ++ (user ++ '@' :: rest)) =
      start ++ (user ++ '@' :: stripQueryAndFragment rest) := by
  obtain ⟨-, hquery', hfragment', -⟩ := huser.notMem
  have hat : stripQueryAndFragment (['@'] ++ rest) = ['@'] ++ stripQueryAndFragment rest :=
    stripQueryAndFragment_append (by decide) (by decide) rest
  rw [stripQueryAndFragment_append hquery hfragment,
    stripQueryAndFragment_append hquery' hfragment']
  exact congrArg (fun shown ↦ start ++ (user ++ shown)) hat

theorem shows_userinfo (start user rest : Text) :
    user ++ ['@'] <:+: start ++ (user ++ '@' :: rest) := ⟨start, rest, by simp⟩

theorem hides_userinfo {text : Text} (h : '@' ∉ text) : ¬ user ++ ['@'] <:+: text :=
  fun hwithin ↦ h (hwithin.subset (by simp))

/-! ## Redirects -/

section Redirect

variable {deps : Dependencies}

/-- What the code relies on of `url::Url` for a reference that begins with two slashes. -/
structure Dependencies.NetworkPaths (deps : Dependencies) : Prop where
  parseUrl : ∀ text, deps.parseUrl ("//".toList ++ text) = none
  joinUrl : ∀ {base url user rest}, UserInfo user →
    deps.joinUrl base ("//".toList ++ (user ++ '@' :: rest)) = some url →
      url.username.isEmpty = false ∨ url.password.isSome = true

theorem joinRedirectUri_userinfo (paths : deps.NetworkPaths) (huser : UserInfo user) (rest : Text)
    (currentUri : Uri) :
    joinRedirectUri deps currentUri ("//".toList ++ (user ++ '@' :: rest)) = none := by
  unfold joinRedirectUri
  split
  · rfl
  split
  · rfl
  next joined hjoined =>
    obtain ⟨base, -, hjoin⟩ := Option.bind_eq_some_iff.mp hjoined
    have hreported : (!joined.username.isEmpty || joined.password.isSome) = true := by
      rcases paths.joinUrl huser hjoin with h | h <;> simp [h]
    rw [if_pos hreported]
    split <;> rfl

theorem startsWithIgnoreCase_slash {c : Char} (hc : c.toLower ≠ '/') (pre text : Text) :
    startsWithIgnoreCase (c :: pre) ('/' :: text) = false := by
  rw [startsWithIgnoreCase, Bool.and_eq_false_iff]
  right
  rw [eqIgnoreAsciiCase, decide_eq_false_iff_not]
  intro heq
  exact hc (List.cons.inj heq).1.symm

variable (deps) in
theorem isValidAbsoluteHttpUriText_slashes (text : Text) :
    isValidAbsoluteHttpUriText deps ("//".toList ++ text) = false := by
  have hsyntax : hasValidRawHttpAuthoritySyntax ("//".toList ++ text) false = false := by
    have hhttp : startsWithIgnoreCase "http://".toList ("//".toList ++ text) = false :=
      startsWithIgnoreCase_slash (by decide) _ _
    have hhttps : startsWithIgnoreCase "https://".toList ("//".toList ++ text) = false :=
      startsWithIgnoreCase_slash (by decide) _ _
    rw [hasValidRawHttpAuthoritySyntax, hhttp, hhttps]
    rfl
  rw [isValidAbsoluteHttpUriText, hsyntax]
  rfl

/-- Whatever `http::Uri` makes of it, such a location does not pass. -/
theorem resolveRedirectUri_userinfo (paths : deps.NetworkPaths) (huser : UserInfo user)
    (rest : Text) (currentUri : Uri) :
    resolveRedirectUri deps currentUri ("//".toList ++ (user ++ '@' :: rest)) = none := by
  have hjoin := joinRedirectUri_userinfo paths huser rest currentUri
  have hinvalid := isValidAbsoluteHttpUriText_slashes deps (user ++ '@' :: rest)
  unfold resolveRedirectUri
  rw [hjoin, hinvalid]
  split
  · split
    · split
      · split
        · rfl
        · simp
      · split <;> rfl
    · split <;> rfl
  · split <;> rfl

theorem redactUriForLogs_slashes (paths : deps.NetworkPaths) (text : Text) :
    redactUriForLogs deps ("//".toList ++ text) =
      redactUriWithoutUrlNormalization ("//".toList ++ text) := by
  have hhttp : startsWithIgnoreCase "http://".toList ("//".toList ++ text) = false :=
    startsWithIgnoreCase_slash (by decide) _ _
  have hhttps : startsWithIgnoreCase "https://".toList ("//".toList ++ text) = false :=
    startsWithIgnoreCase_slash (by decide) _ _
  rw [redactUriForLogs, hhttp, hhttps, paths.parseUrl]
  rfl

theorem redactNonAuthorityCredentials_slashes (text : Text) :
    redactNonAuthorityCredentials ("//".toList ++ text) = "//".toList ++ text := by
  apply redactNonAuthorityCredentials_of_scheme
  intro scheme rest _ heq
  rw [Bool.eq_false_iff]
  intro hmail
  cases scheme with
  | nil => cases hmail
  | cons c scheme =>
    have hslash : '/' ∉ c :: scheme := notMem_of_isMailScheme hmail (by decide) (by decide)
    rw [← (List.cons.inj heq).1] at hslash
    exact hslash List.mem_cons_self

/-- The user information is hidden if and only if no `://` stands behind it. -/
theorem hides_network_userinfo_iff (huser : UserInfo user) (hrest : HostText rest) :
    ¬ user ++ ['@'] <:+:
        redactUriWithoutUrlNormalization ("//".toList ++ (user ++ '@' :: rest)) ↔
      ¬ schemeMark <:+: stripQueryAndFragment rest := by
  rw [redactUriWithoutUrlNormalization,
    stripQueryAndFragment_userinfo huser (by decide) (by decide)]
  by_cases hmark : schemeMark <:+: stripQueryAndFragment rest
  · have hbefore : ¬ schemeMark <:+: "//".toList ++ user := by
      intro hwithin
      exact huser.notMem.1 ((schemeMark_infix_of_append (by decide) hwithin).subset (by decide))
    have hmark' : schemeMark <:+:
        ("//".toList ++ user) ++ '@' :: stripQueryAndFragment rest :=
      hmark.trans ⟨("//".toList ++ user) ++ ['@'], [], by simp⟩
    have hkept := redactUserinfoInAuthority_of_last hrest.strip.1 hbefore
      fun hnone ↦ absurd hmark' hnone
    rw [List.append_assoc] at hkept
    rw [hkept, redactNonAuthorityCredentials_slashes]
    exact iff_of_false (not_not.mpr (shows_userinfo _ _ _)) (not_not.mpr hmark)
  · have hnone : ¬ schemeMark <:+: "//".toList ++ (user ++ '@' :: stripQueryAndFragment rest) := by
      intro hwithin
      exact hmark (schemeMark_infix_of_at huser.notMem.1
        (schemeMark_infix_of_append (by decide) hwithin))
    rw [redactUserinfoInAuthority_network hnone, hideUserinfo_userinfo huser hrest,
      redactNonAuthorityCredentials_slashes]
    refine iff_of_true (hides_userinfo ?_) hmark
    rw [List.mem_append, not_or]
    exact ⟨by decide, hrest.strip.1⟩

/-- A redirect to such a location is refused, and the condition under which its error does not
show the user information. -/
theorem redirect_userinfo_hidden_iff (paths : deps.NetworkPaths) (s : RequestExecutionState)
    {status : StatusCode} {headers : HeaderMap} (henabled : s.options.redirectPolicy.enabled = true)
    (hstatus : isRedirectStatus status = true)
    (hcount : s.redirectCount < s.options.redirectPolicy.maxRedirects)
    (hbody : s.bodyReplayable = true ∨ redirectDropsBody s.currentMethod status = true)
    (huser : UserInfo user) (hrest : HostText rest)
    (hlocation : redirectLocation headers = some ("//".toList ++ (user ++ '@' :: rest))) :
    ∃ location, s.nextRedirectAction deps status headers =
        .error (.invalidRedirectLocation location s.currentMethod s.currentRedactedUri) ∧
      (¬ user ++ ['@'] <:+: location ↔ ¬ schemeMark <:+: stripQueryAndFragment rest) := by
  refine ⟨redactUriForLogs deps ("//".toList ++ (user ++ '@' :: rest)), ?_, ?_⟩
  · have hkept : (!s.bodyReplayable && !redirectDropsBody s.currentMethod status) = false := by
      rcases hbody with h | h <;> simp [h]
    unfold RequestExecutionState.nextRedirectAction
    rw [if_neg (by simp [henabled, hstatus]), if_neg (Nat.not_le.mpr hcount)]
    dsimp only
    rw [if_neg (by rw [hkept]; decide), hlocation]
    dsimp only
    rw [resolveRedirectUri_userinfo paths huser rest s.currentUri]
  · rw [redactUriForLogs_slashes paths]
    exact hides_network_userinfo_iff huser hrest

end Redirect

/-! ## Requests -/

section Request

variable {deps : Dependencies} {scheme : Text}

/-- What the code relies on of `http::Uri` for a text that begins like an HTTP URL and is none,
and of `url::Url` for the parts of a URL from which the user information was removed. -/
structure Dependencies.RequestUrls (deps : Dependencies) : Prop where
  parseUri_malformed : ∀ {text uri}, looksLikeMalformedHttpAbsoluteUri text = true →
    (∀ scheme authority rest, ¬ AbsoluteHttp text scheme authority rest) →
      deps.parseUri text = some uri → uri.host.isSome = true ∧ uri.schemeStr = none
  cleared : ∀ {scheme user rest url}, isHttpIgnoreCase scheme = true → UserInfo user →
    HostText rest → deps.parseUrl (scheme ++ schemeMark ++ (user ++ '@' :: rest)) = some url →
      '@' ∉ (clearedUrl deps url).text ∧
        ∀ segments ∈ (clearedUrl deps url).pathSegments, ∀ segment ∈ segments, '@' ∉ segment
  setPath : ∀ {url path}, '@' ∉ url.text → '@' ∉ path → '@' ∉ (deps.setPath url path).text

theorem looksLikeMalformedHttpAbsoluteUri_scheme (hscheme : isHttpIgnoreCase scheme = true)
    (rest : Text) : looksLikeMalformedHttpAbsoluteUri (scheme ++ ':' :: rest) = true := by
  have hstarts {name : Text} (hname : eqIgnoreAsciiCase scheme name = true) :
      startsWithIgnoreCase (name ++ [':']) (scheme ++ ':' :: rest) = true := by
    refine startsWithIgnoreCase_iff.mpr ⟨scheme ++ [':'], rest, by simp, ?_⟩
    rw [eqIgnoreAsciiCase, decide_eq_true_iff] at hname ⊢
    simp only [toAsciiLowercase, List.map_append] at hname ⊢
    rw [hname]
  rw [looksLikeMalformedHttpAbsoluteUri, Bool.or_eq_true]
  exact (Bool.or_eq_true_iff.mp hscheme).imp hstarts hstarts

theorem notMem_redactSegment {segment : Text} (h : '@' ∉ segment) :
    '@' ∉ redactSegment segment := by
  unfold redactSegment
  split
  next left right hsplit =>
    have hleft : left.Sublist segment := by
      unfold splitCredentialLikeSegment at hsplit
      split at hsplit
      · cases hsplit
      · dsimp only at hsplit
        split_ifs at hsplit
        cases hsplit
        exact List.take_sublist _ _
    rw [List.mem_append, not_or]
    exact ⟨fun hmem ↦ h (hleft.subset hmem), by decide⟩
  · exact h

theorem notMem_redactSensitivePathSegments (urls : deps.RequestUrls) {url : Url}
    (htext : '@' ∉ url.text)
    (hsegments : ∀ segments ∈ url.pathSegments, ∀ segment ∈ segments, '@' ∉ segment) :
    '@' ∉ (redactSensitivePathSegments deps url).text := by
  unfold redactSensitivePathSegments
  split
  · exact htext
  · exact htext
  next segments _ hpath =>
    split_ifs
    · exact htext
    · have hrebuilt : '@' ∉ (segments.map fun segment ↦ '/' :: redactSegment segment).flatten := by
        simp only [List.mem_flatten, List.mem_map, not_exists, not_and]
        rintro part ⟨segment, hsegment, rfl⟩ hmem
        rcases List.mem_cons.mp hmem with heq | hmem
        · exact absurd heq (by decide)
        · exact notMem_redactSegment (hsegments segments hpath segment hsegment) hmem
      apply urls.setPath htext
      split_ifs
      · rw [List.mem_append, not_or]
        exact ⟨hrebuilt, by decide⟩
      · exact hrebuilt

theorem notMem_of_isHttpIgnoreCase {c : Char} (hlower : c.toLower = c) (hc : c ∉ "https".toList)
    (h : isHttpIgnoreCase scheme = true) : c ∉ scheme := by
  intro hmem
  have hmem' : c ∈ toAsciiLowercase scheme := List.mem_map.mpr ⟨c, hmem, hlower⟩
  have hhttp : "http".toList ⊆ "https".toList := by decide
  rcases Bool.or_eq_true_iff.mp h with h | h <;> rw [of_decide_eq_true h] at hmem'
  · exact hc (hhttp hmem')
  · exact hc hmem'

theorem notMem_fallback_absolute (hscheme : isHttpIgnoreCase scheme = true) (huser : UserInfo user)
    (hrest : HostText rest) :
    '@' ∉ redactUriWithoutUrlNormalization (scheme ++ schemeMark ++ (user ++ '@' :: rest)) := by
  have hquery : '?' ∉ scheme ++ schemeMark := by
    rw [List.mem_append, not_or]
    exact ⟨notMem_of_isHttpIgnoreCase (by decide) (by decide) hscheme, by decide⟩
  have hfragment : '#' ∉ scheme ++ schemeMark := by
    rw [List.mem_append, not_or]
    exact ⟨notMem_of_isHttpIgnoreCase (by decide) (by decide) hscheme, by decide⟩
  have hsplit : splitOnceText schemeMark
      (scheme ++ schemeMark ++ (user ++ '@' :: stripQueryAndFragment rest)) =
        some (scheme, user ++ '@' :: stripQueryAndFragment rest) :=
    splitOnceText_append (colon_not_mem hscheme) _ _
  have hclean : '@' ∉ scheme ++ schemeMark ++ stripQueryAndFragment rest := by
    simp only [List.mem_append, not_or]
    exact ⟨⟨notMem_of_isHttpIgnoreCase (by decide) (by decide) hscheme, by decide⟩, hrest.strip.1⟩
  rw [redactUriWithoutUrlNormalization, stripQueryAndFragment_userinfo huser hquery hfragment,
    redactUserinfoInAuthority_absolute hsplit, hideUserinfo_userinfo huser hrest,
    redactNonAuthorityCredentials_of_notMem hclean]
  exact hclean

/-- A URL that was parsed is shown without its user information. -/
theorem notMem_redactUriForLogs (urls : deps.RequestUrls) (hscheme : isHttpIgnoreCase scheme = true)
    (huser : UserInfo user) (hrest : HostText rest) :
    '@' ∉ redactUriForLogs deps (scheme ++ schemeMark ++ (user ++ '@' :: rest)) := by
  have hfallback := notMem_fallback_absolute hscheme huser hrest
  unfold redactUriForLogs
  dsimp only
  split_ifs
  · exact hfallback
  · split
    · exact hfallback
    next url hparse =>
      obtain ⟨htext, hsegments⟩ := urls.cleared hscheme huser hrest hparse
      have hclean := notMem_redactSensitivePathSegments urls htext hsegments
      rw [clearedUrl] at hclean
      rw [redactUserinfoInAuthority_of_notMem hclean,
        redactNonAuthorityCredentials_of_notMem hclean]
      exact hclean

/-! ### Other numbers of slashes -/

theorem isMailScheme_of_isHttpIgnoreCase (h : isHttpIgnoreCase scheme = true) :
    isMailScheme scheme = false := by
  rcases Bool.or_eq_true_iff.mp h with h | h <;>
  · rw [isMailScheme, of_decide_eq_true h]
    rfl

theorem hideUserinfo_slash (rest : Text) : hideUserinfo ('/' :: rest) = '/' :: rest :=
  hideUserinfo_of_notMem (by simp [authorityPart])

theorem authority_few_slashes (hscheme : isHttpIgnoreCase scheme = true) (huser : UserInfo user)
    {shown : Text} (hshown : '@' ∉ shown) {slashes : ℕ} (hslashes : slashes < 2) :
    redactUserinfoInAuthority
        (scheme ++ ':' :: List.replicate slashes '/' ++ (user ++ '@' :: shown)) =
      scheme ++ ':' :: List.replicate slashes '/' ++ (user ++ '@' :: shown) := by
  have hslash : '/' ∉ scheme := notMem_of_isHttpIgnoreCase (by decide) (by decide) hscheme
  rw [← List.append_assoc]
  apply redactUserinfoInAuthority_of_last hshown
  · -- The mark has two slashes.
    intro hmark
    have hcount := hmark.sublist.count_le '/'
    simp [schemeMark, List.count_append, List.count_eq_zero_of_not_mem hslash,
      List.count_eq_zero_of_not_mem huser.notMem.1] at hcount
    omega
  · intro _ hstart
    cases scheme with
    | nil => cases hscheme
    | cons c scheme =>
      rw [← (List.cons_prefix_cons.mp hstart).1] at hslash
      exact hslash List.mem_cons_self

theorem authority_many_slashes (hscheme : isHttpIgnoreCase scheme = true) (slashes : ℕ)
    (rest : Text) :
    redactUserinfoInAuthority (scheme ++ ':' :: List.replicate (slashes + 3) '/' ++ rest) =
      scheme ++ ':' :: List.replicate (slashes + 3) '/' ++ rest := by
  have hcut : scheme ++ ':' :: List.replicate (slashes + 3) '/' ++ rest =
      scheme ++ schemeMark ++ '/' :: (List.replicate slashes '/' ++ rest) := by
    rw [List.append_assoc, List.append_assoc]
    rfl
  have hsplit : splitOnceText schemeMark
      (scheme ++ schemeMark ++ '/' :: (List.replicate slashes '/' ++ rest)) = some (scheme, _) :=
    splitOnceText_append (colon_not_mem hscheme) _ _
  rw [hcut, redactUserinfoInAuthority_absolute hsplit, hideUserinfo_slash]

/-- With any other number of slashes the redaction does not find the authority. -/
theorem fallback_malformed (hscheme : isHttpIgnoreCase scheme = true) (huser : UserInfo user)
    (hrest : HostText rest) {slashes : ℕ} (hslashes : slashes ≠ 2) :
    redactUriWithoutUrlNormalization
        (scheme ++ ':' :: List.replicate slashes '/' ++ (user ++ '@' :: rest)) =
      scheme ++ ':' :: List.replicate slashes '/' ++
        (user ++ '@' :: stripQueryAndFragment rest) := by
  have hplain {c : Char} (hlower : c.toLower = c) (hc : c ∉ "https:/".toList) :
      c ∉ scheme ++ ':' :: List.replicate slashes '/' := by
    have hletters : "https".toList ⊆ "https:/".toList := by decide
    simp only [List.mem_append, List.mem_cons, List.mem_replicate, not_or, not_and]
    refine ⟨notMem_of_isHttpIgnoreCase hlower (fun hmem ↦ hc (hletters hmem)) hscheme, ?_, ?_⟩
    · rintro rfl
      exact hc (by decide)
    · rintro - rfl
      exact hc (by decide)
  have hauthority : redactUserinfoInAuthority (scheme ++ ':' :: List.replicate slashes '/' ++
      (user ++ '@' :: stripQueryAndFragment rest)) =
        scheme ++ ':' :: List.replicate slashes '/' ++
          (user ++ '@' :: stripQueryAndFragment rest) := by
    rcases Nat.lt_or_gt_of_ne hslashes with hfew | hmany
    · exact authority_few_slashes hscheme huser hrest.strip.1 hfew
    · obtain ⟨more, rfl⟩ := Nat.exists_eq_add_of_le' hmany
      exact authority_many_slashes hscheme more _
  rw [redactUriWithoutUrlNormalization,
    stripQueryAndFragment_userinfo huser (hplain (by decide) (by decide))
      (hplain (by decide) (by decide)), hauthority]
  apply redactNonAuthorityCredentials_of_scheme
  intro scheme' rest' hcolon heq
  have hsplit := splitOnce_append hcolon rest'
  rw [← heq, List.append_assoc, List.cons_append,
    splitOnce_append (colon_not_mem hscheme)] at hsplit
  obtain rfl : scheme = scheme' := (Prod.ext_iff.mp (Option.some.inj hsplit)).1
  exact isMailScheme_of_isHttpIgnoreCase hscheme

/-! ### The request URI -/

theorem AbsoluteHttp.userinfo (hscheme : isHttpIgnoreCase scheme = true) (huser : UserInfo user)
    (rest : Text) :
    AbsoluteHttp (scheme ++ schemeMark ++ (user ++ '@' :: rest)) scheme
      (user ++ '@' :: rest.takeWhile inAuthority) (rest.dropWhile inAuthority) := by
  have hinside : ∀ c ∈ user ++ ['@'], inAuthority c = true := by
    intro c hc
    rcases List.mem_append.mp hc with hc | hc
    · have hclean := huser.clean c hc
      exact decide_eq_true ⟨hclean.1, hclean.2.1, hclean.2.2.1⟩
    · rw [List.mem_singleton.mp hc]
      rfl
  have happend : user ++ '@' :: rest = (user ++ ['@']) ++ rest := by simp
  have hauthority : (user ++ '@' :: rest).takeWhile inAuthority =
      user ++ '@' :: rest.takeWhile inAuthority := by
    rw [happend, List.takeWhile_append_of_pos hinside]
    simp
  have hpath : (user ++ '@' :: rest).dropWhile inAuthority = rest.dropWhile inAuthority := by
    rw [happend, List.dropWhile_append_of_pos hinside]
  have hcut := @absoluteHttp_cut scheme (user ++ '@' :: rest) hscheme (by simp [hauthority])
  rwa [hauthority, hpath] at hcut

theorem UserInfo.head_ne_slash (h : UserInfo user) (rest : Text) :
    (user ++ '@' :: rest).head? ≠ some '/' := by
  intro hhead
  cases user with
  | nil => simp at hhead
  | cons c user =>
    obtain rfl : c = '/' := Option.some.inj hhead
    exact h.notMem.1 List.mem_cons_self

theorem not_absoluteHttp_malformed (hscheme : isHttpIgnoreCase scheme = true)
    (huser : UserInfo user) {slashes : ℕ} (hslashes : slashes ≠ 2)
    {scheme' authority rest' : Text} :
    ¬ AbsoluteHttp (scheme ++ ':' :: List.replicate slashes '/' ++ (user ++ '@' :: rest)) scheme'
      authority rest' := by
  intro h
  have hcut := splitOnce_append (colon_not_mem h.scheme) ('/' :: '/' :: (authority ++ rest'))
  have htext : scheme' ++ ':' :: '/' :: '/' :: (authority ++ rest') =
      scheme ++ ':' :: (List.replicate slashes '/' ++ (user ++ '@' :: rest)) := by
    have heq := h.text_eq
    simp only [List.append_assoc, List.cons_append] at heq
    exact heq.symm
  rw [htext, splitOnce_append (colon_not_mem hscheme)] at hcut
  have hbehind : List.replicate slashes '/' ++ (user ++ '@' :: rest) =
      '/' :: '/' :: (authority ++ rest') := (Prod.ext_iff.mp (Option.some.inj hcut)).2
  have hhead := huser.head_ne_slash rest
  -- Fewer slashes would leave one to the user information, more would give one to the authority.
  rcases slashes with _ | _ | _ | more
  · exact hhead (congrArg List.head? hbehind)
  · exact hhead (congrArg List.head? (List.cons.inj hbehind).2)
  · exact hslashes rfl
  · have hslash : '/' :: (List.replicate more '/' ++ (user ++ '@' :: rest)) = authority ++ rest' :=
      (List.cons.inj (List.cons.inj hbehind).2).2
    cases authority with
    | nil => exact h.authority_ne_nil rfl
    | cons c authority =>
      obtain rfl : '/' = c := (List.cons.inj hslash).1
      cases h.authority_clean '/' List.mem_cons_self

/-- A request to such a URI is refused, and the condition under which its error does not show the
user information. -/
theorem request_userinfo_hidden_iff (parsers : deps.Documented) (urls : deps.RequestUrls)
    (baseUrl : Text) (hscheme : isHttpIgnoreCase scheme = true) (slashes : ℕ)
    (huser : UserInfo user) (hrest : HostText rest) :
    ∃ uri, resolveUri deps baseUrl
        (scheme ++ ':' :: List.replicate slashes '/' ++ (user ++ '@' :: rest)) =
          .error (.invalidUri uri) ∧
      (¬ user ++ ['@'] <:+: uri ↔ slashes = 2) := by
  have hlooks : looksLikeMalformedHttpAbsoluteUri
      (scheme ++ ':' :: List.replicate slashes '/' ++ (user ++ '@' :: rest)) = true := by
    rw [List.append_assoc]
    exact looksLikeMalformedHttpAbsoluteUri_scheme hscheme _
  by_cases hslashes : slashes = 2
  · subst hslashes
    have htext : scheme ++ ':' :: List.replicate 2 '/' ++ (user ++ '@' :: rest) =
        scheme ++ schemeMark ++ (user ++ '@' :: rest) := rfl
    rw [htext] at hlooks ⊢
    cases hparse : deps.parseUri (scheme ++ schemeMark ++ (user ++ '@' :: rest)) with
    | none =>
      refine ⟨_, ?_, iff_of_true (hides_userinfo
        (notMem_fallback_absolute hscheme huser hrest)) rfl⟩
      simp only [resolveUri, requestUriText, hparse, hlooks, if_true]
    | some uri =>
      obtain ⟨hscheme', hauthority⟩ :=
        parsers.parseUri_absolute (AbsoluteHttp.userinfo hscheme huser rest) hparse
      have hhost := parsers.host_of_authority hparse hauthority
      have huserinfo : uriHasUserinfo uri = true := by
        simp [uriHasUserinfo, hauthority, contains]
      refine ⟨_, ?_, iff_of_true (hides_userinfo
        (notMem_redactUriForLogs urls hscheme huser hrest)) rfl⟩
      simp only [resolveUri, requestUriText, hparse, hhost, hscheme', huserinfo, if_true]
  · have hshown := fallback_malformed hscheme huser hrest hslashes
    refine ⟨scheme ++ ':' :: List.replicate slashes '/' ++
      (user ++ '@' :: stripQueryAndFragment rest), ?_,
      iff_of_false (not_not.mpr (shows_userinfo _ _ _)) hslashes⟩
    rw [← hshown]
    cases hparse : deps.parseUri
        (scheme ++ ':' :: List.replicate slashes '/' ++ (user ++ '@' :: rest)) with
    | none => simp only [resolveUri, requestUriText, hparse, hlooks, if_true]
    | some uri =>
      obtain ⟨hhost, hnone⟩ := urls.parseUri_malformed hlooks
        (fun _ _ _ ↦ not_absoluteHttp_malformed hscheme huser hslashes) hparse
      simp only [resolveUri, requestUriText, hparse, hhost, hnone, if_true]

end Request

/-! ## Texts that the crates were asked about -/

namespace RequestTexts

open Driver.Sample (parsers knownUris knownUrls knownJoins cutUrl mem_of_known documented_parsers)

/-- What is left of a URL does not depend on its query. -/
theorem exists_known_of_parseUrl {text : Text} {url : Url} (h : parsers.parseUrl text = some url) :
    ∃ known, (stripQueryAndFragment text, known) ∈ knownUrls ∧ url.scheme = known.scheme ∧
      url.hostStr = known.hostStr ∧ clearedUrl parsers url = clearedUrl parsers known := by
  obtain ⟨known, hknown, rfl⟩ := Option.map_eq_some_iff.mp h
  exact ⟨known, mem_of_known hknown, rfl, rfl, rfl⟩

theorem networkPaths_parsers : parsers.NetworkPaths where
  parseUrl text := by
    have htable : ∀ entry ∈ knownUrls, entry.1.head? ≠ some '/' := by decide +kernel
    by_contra hsome
    obtain ⟨url, hurl⟩ := Option.ne_none_iff_exists'.mp hsome
    obtain ⟨known, hknown, -⟩ := exists_known_of_parseUrl hurl
    exact htable _ hknown rfl
  joinUrl _ hjoin := by
    have htable : ∀ entry ∈ knownJoins, entry.2.username.isEmpty = false := by decide +kernel
    exact .inl (htable _ (mem_of_known (Option.ite_none_right_eq_some.mp hjoin).2))

theorem knownUrls_cleared : ∀ entry ∈ knownUrls, '@' ∉ (clearedUrl parsers entry.2).text ∧
    ∀ segments ∈ (clearedUrl parsers entry.2).pathSegments, ∀ segment ∈ segments,
      '@' ∉ segment := by decide +kernel

theorem requestUrls_parsers : parsers.RequestUrls where
  parseUri_malformed hlooks hnone hparse := by
    have htable : ∀ entry ∈ knownUris, looksLikeMalformedHttpAbsoluteUri entry.1 = true →
        (cutUrl entry.1).isSome = true := by decide +kernel
    obtain ⟨cut, hcut⟩ :=
      Option.isSome_iff_exists.mp (htable _ (mem_of_known hparse) hlooks)
    exact absurd (Driver.Sample.absoluteHttp_of_cutUrl hcut) (hnone _ _ _)
  cleared _ _ _ hparse := by
    obtain ⟨known, hknown, -, -, hcleared⟩ := exists_known_of_parseUrl hparse
    rw [hcleared]
    exact knownUrls_cleared (_, known) hknown
  setPath htext _ := htext

def credentials : Text := "user:pass".toList

theorem userInfo_credentials : UserInfo credentials := by
  have hclean : ∀ c ∈ "user:pass".toList, c ≠ '/' ∧ c ≠ '?' ∧ c ≠ '#' ∧ c ≠ '@' ∧ c ≠ '\\' ∧
      isWhitespace c = false := by simp [isWhitespace]
  exact ⟨⟨'u', rfl, by decide⟩, hclean⟩

def host : Text := "b.test/path".toList

theorem hostText_host : HostText host := ⟨⟨'b', rfl, rfl⟩, by decide⟩

/-- A path with a mark of its own. -/
def markedHost : Text := "b.test/x://y".toList

theorem hostText_markedHost : HostText markedHost := ⟨⟨'b', rfl, rfl⟩, by decide⟩

def state : RequestExecutionState :=
  (RequestExecutionState.fromRequest (Driver.Sample.call .get .default).input 0
    strictRetryEligibility).1

def redirectTo (location : Text) : HeaderMap := ⟨[(.location, .ofString (String.ofList location))]⟩

end RequestTexts

open RequestTexts
open Driver.Sample (parsers documented_parsers)

theorem redirect_userinfo_hidden :
    ∃ location, state.nextRedirectAction parsers .found
        (redirectTo ("//".toList ++ (credentials ++ '@' :: host))) =
          .error (.invalidRedirectLocation location .get "https://a.test".toList) ∧
      (¬ credentials ++ ['@'] <:+: location ↔ ¬ schemeMark <:+: stripQueryAndFragment host) :=
  redirect_userinfo_hidden_iff networkPaths_parsers state (by decide) (by decide) (by decide)
    (.inl rfl) userInfo_credentials hostText_host (by decide +kernel)

theorem redirect_userinfo_shown :
    UserInfo credentials ∧ HostText markedHost ∧
      state.nextRedirectAction parsers .found
          (redirectTo ("//".toList ++ (credentials ++ '@' :: markedHost))) =
        .error (.invalidRedirectLocation "//user:pass@b.test/x://y".toList .get
          "https://a.test".toList) ∧
      credentials ++ ['@'] <:+: "//user:pass@b.test/x://y".toList :=
  ⟨userInfo_credentials, hostText_markedHost, by decide +kernel, by decide +kernel⟩

theorem request_userinfo_hidden :
    ∃ uri, resolveUri parsers "https://a.test/v1".toList
        ("https".toList ++ ':' :: List.replicate 2 '/' ++ (credentials ++ '@' :: host)) =
          .error (.invalidUri uri) ∧ (¬ credentials ++ ['@'] <:+: uri ↔ 2 = 2) :=
  request_userinfo_hidden_iff documented_parsers requestUrls_parsers _ (by decide) 2
    userInfo_credentials hostText_host

theorem request_userinfo_shown :
    validateBaseUrl parsers "https://a.test/v1".toList = .ok () ∧ UserInfo credentials ∧
      HostText host ∧
      resolveUri parsers "https://a.test/v1".toList "http:user:pass@b.test/path".toList =
        .error (.invalidUri "http:user:pass@b.test/path".toList) ∧
      credentials ++ ['@'] <:+: "http:user:pass@b.test/path".toList :=
  ⟨by decide +kernel, userInfo_credentials, hostText_host, by decide +kernel, by decide +kernel⟩

end Reqx
